import Ensemble.Node.Records

/-! # The transaction codec

A transaction travels as a sequence of parts. Each operation is a multi header (the operation's
code, not done, error `-1`) followed by the operation's request record; a terminator header
(`-1`, done, `-1`) closes the list. The reply has the same shape: each result is a multi header
(the operation's code, or `-1` for a failure, not done, and the failure code or `0`) followed by
its body (the created path, the new metadata, or the failure code; deletions and checks have
none), and the terminator closes it.

A transaction's chroot goes to every operation record, which applies it to the operation's path.
Reading stops at the first header whose `done` byte is `1`, whatever its code; any other header
must name one of the four operations (or, in a reply, a failure). Every header takes nine bytes,
so reading takes at most one round per nine bytes of input.
-/

namespace Ensemble

/-- The fields of a multi header. -/
def multiHeader (type : Int32) (done : Bool) (err : Int32) : Record :=
  ⟨Catalog.multiHeader, [.int type, .boolean done, .int err], none⟩

/-- The header that closes a transaction. -/
def terminator : Record := multiHeader (-1) true (-1)

namespace Op

/-- The request record of an operation. -/
def toRecord : Op → Record
  | .create p d acls m =>
    ⟨Catalog.createRequest, [.ustring (some p), .buffer d, Acl.toVector acls, .int m.value], none⟩
  | .delete p v => ⟨Catalog.deleteRequest, [.ustring (some p), .int v], none⟩
  | .setData p d v => ⟨Catalog.setDataRequest, [.ustring (some p), .buffer d, .int v], none⟩
  | .check p v => ⟨Catalog.checkVersionRequest, [.ustring (some p), .int v], none⟩

/-- The request class of an operation that may stand in a transaction. -/
def schemaOf : OpCode → Except Error Schema
  | .create => .ok Catalog.createRequest
  | .delete => .ok Catalog.deleteRequest
  | .setData => .ok Catalog.setDataRequest
  | .check => .ok Catalog.checkVersionRequest
  | op => .error (.protocol (.unexpectedOp op))

/-- The operation of a request record; an absent path reads as empty. -/
def ofRecord (op : OpCode) (r : Record) : Except Error Op := do
  let path := (← r.getUString "path").getD ""
  match op with
  | .create =>
    let data ← r.getBuffer "data"
    let acls ← Acl.ofVector (← r.getVector "acl")
    let mode ← CreateMode.ofValue (← r.getInt "flags")
    pure (.create path data acls mode)
  | .delete => pure (.delete path (← r.getInt "version"))
  | .setData =>
    let data ← r.getBuffer "data"
    pure (.setData path data (← r.getInt "version"))
  | .check => pure (.check path (← r.getInt "version"))
  | other => throw (.protocol (.unexpectedOp other))

end Op

/-- The operations of a transaction request, with the chroot they are sent under. -/
structure Transaction where
  ops : List Op
  chroot : Option String := none

namespace Transaction

/-- The records a transaction travels as: header and record per operation, then the
terminator. -/
def records (t : Transaction) : List Record :=
  t.ops.flatMap (fun op => [multiHeader op.opCode.value false (-1), op.toRecord.setChroot t.chroot])
    ++ [terminator]

/-- The number of bytes of a transaction. -/
def byteLength (t : Transaction) : Except Error Nat :=
  t.records.foldlM (fun n r => (n + ·) <$> r.byteLength) 0

/-- Writes a transaction. -/
def put (t : Transaction) : Writer Unit :=
  t.records.forM Record.put

/-- Writes a transaction into `buf` at `offset`: the number of bytes written and the buffer
after the write. -/
def serialize (t : Transaction) (buf : List UInt8) (offset : Nat) :
    Except Error (Nat × List UInt8) :=
  if buf.length ≤ offset then .error (outOfRange offset)
  else do
    let size ← t.byteLength
    if buf.length < offset + size then throw (.serialization .recordNoRoom)
    let out ← Writer.run t.put size
    pure (out.length, splice buf offset out)

end Transaction

/-- A multi header as read: `none` when it closes the list, otherwise the operation it names. -/
def readHeader : Reader (Option OpCode) := do
  let r ← (Record.new Catalog.multiHeader).getFields
  if ← r.getBool "done" then pure none
  else some <$> OpCode.ofValue (← r.getInt "type")

/-- Reads operations until the terminator, within `fuel` rounds. -/
def readOps : Nat → List Op → Reader (List Op)
  | 0, acc => pure acc.reverse
  | fuel + 1, acc => do
    match ← readHeader with
    | none => pure acc.reverse
    | some op =>
      let s ← Op.schemaOf op
      let r ← (Record.new s).getFields
      let o ← Op.ofRecord op r
      readOps fuel (o :: acc)

/-- Reads a transaction request from `buf` at `offset`: its operations and the number of bytes
read. An offset past the end reads from no bytes. -/
def Transaction.deserialize (buf : List UInt8) (offset : Nat) : Except Error (Transaction × Nat) :=
  let input := buf.drop offset
  (fun (ops, n) => (⟨ops, none⟩, n)) <$> Reader.runCounting (readOps (input.length + 1) []) input

namespace OpResult

/-- The body record of a result, if it has one. -/
def body? : OpResult → Option Record
  | .created p => some ⟨Catalog.createResponse, [.ustring (some p)], none⟩
  | .dataSet s => some ⟨Catalog.setDataResponse, [s.toValue], none⟩
  | .failed c => some ⟨Catalog.errorResponse, [.int c.value], none⟩
  | .deleted | .checked => none

/-- The records a result travels as: its header and its body. -/
def records (r : OpResult) : List Record :=
  let err := match r with
    | .failed c => c.value
    | _ => 0
  multiHeader r.opCode.value false err :: r.body?.toList

end OpResult

/-- The records a list of results travels as, with the terminator. -/
def resultRecords (results : List OpResult) : List Record :=
  results.flatMap OpResult.records ++ [terminator]

/-- The number of bytes of a list of results. -/
def resultsLength (results : List OpResult) : Except Error Nat :=
  (resultRecords results).foldlM (fun n r => (n + ·) <$> r.byteLength) 0

/-- Writes a list of results. -/
def putResults (results : List OpResult) : Writer Unit :=
  (resultRecords results).forM Record.put

/-- Reads the body of a result of class `s`, with the chroot stripped from its path. -/
def readBody (s : Schema) (chroot : Option String) : Reader Record := do
  let r ← ((Record.new s).setChroot chroot).getFields
  pure r.strip

/-- Reads results until the terminator, within `fuel` rounds. -/
def readResults (chroot : Option String) : Nat → List OpResult → Reader (List OpResult)
  | 0, acc => pure acc.reverse
  | fuel + 1, acc => do
    match ← readHeader with
    | none => pure acc.reverse
    | some op =>
      let result ← match op with
        | .create => do
          let r ← readBody Catalog.createResponse chroot
          pure (OpResult.created ((← r.getUString "path").getD ""))
        | .delete => pure OpResult.deleted
        | .setData => do
          let r ← readBody Catalog.setDataResponse chroot
          pure (OpResult.dataSet (← Stat.ofRecord (← r.getRecord "stat")))
        | .check => pure OpResult.checked
        | .error => do
          let r ← readBody Catalog.errorResponse chroot
          pure (OpResult.failed (← ExceptionCode.ofValue (← r.getInt "err")))
        | other => throw (.protocol (.unexpectedOp other))
      readResults chroot fuel (result :: acc)

/-- Reads a transaction reply from `buf` at `offset` under a chroot: the results and the number
of bytes read. An offset at or past the end is refused. -/
def deserializeResults (buf : List UInt8) (offset : Nat) (chroot : Option String) :
    Except Error (List OpResult × Nat) :=
  if buf.length ≤ offset then .error (outOfRange offset)
  else
    let input := buf.drop offset
    Reader.runCounting (readResults chroot (input.length + 1) []) input

end Ensemble
