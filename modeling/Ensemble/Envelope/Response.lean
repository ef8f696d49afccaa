import Ensemble.Envelope.Request

/-! # Replies

A reply is a header, holding the `xid` of the request it answers, the transaction id of the
server's state (`zxid`) and a result code, followed by a body: a record, the results of a
transaction, or nothing. A reply arrives without its length, which the stream framing took.

How a reply's body is read depends on the request it answers. For a transaction the body is the
list of results whenever bytes follow the header, whatever the result code says. For any other
operation a failure code means no body; otherwise the body is the reply class of the operation,
read under the request's chroot, or nothing when the operation has no reply class.

A watch notification is a reply with `xid` `-1` whose body is a `WatcherEvent`.
-/

namespace Ensemble

/-- The body of a reply. -/
inductive ResponsePayload where
  | empty
  | record (r : Record)
  | transaction (results : List OpResult)

/-- A reply: header fields and body. -/
structure Response where
  xid : Int32
  zxid : Long
  err : Int32
  payload : ResponsePayload

/-- The name of a result code's constructor, as a structural dump shows it. -/
def ExceptionCode.variant : ExceptionCode → String
  | .ok => "Ok"
  | .systemError => "SystemError"
  | .runtimeInconsistency => "RuntimeInconsistency"
  | .dataInconsistency => "DataInconsistency"
  | .connectionLoss => "ConnectionLoss"
  | .marshallingError => "MarshallingError"
  | .unimplemented => "Unimplemented"
  | .operationTimeout => "OperationTimeout"
  | .badArguments => "BadArguments"
  | .apiError => "ApiError"
  | .noNode => "NoNode"
  | .noAuth => "NoAuth"
  | .badVersion => "BadVersion"
  | .noChildrenForEphemerals => "NoChildrenForEphemerals"
  | .nodeExists => "NodeExists"
  | .notEmpty => "NotEmpty"
  | .sessionExpired => "SessionExpired"
  | .invalidCallback => "InvalidCallback"
  | .invalidAcl => "InvalidAcl"
  | .authFailed => "AuthFailed"

/-- Metadata as a structural dump shows it. -/
def Stat.debug (s : Stat) : String :=
  let i (x : Int) := Decimal.ofInt x
  "Stat \x7b czxid: " ++ i s.czxid.toInt ++ ", mzxid: " ++ i s.mzxid.toInt ++
    ", ctime: " ++ i s.ctime.toInt ++ ", mtime: " ++ i s.mtime.toInt ++
    ", version: " ++ i s.version.toInt ++ ", cversion: " ++ i s.cversion.toInt ++
    ", aversion: " ++ i s.aversion.toInt ++ ", ephemeral_owner: " ++ i s.ephemeralOwner.toInt ++
    ", data_length: " ++ i s.dataLength.toInt ++ ", num_children: " ++ i s.numChildren.toInt ++
    ", pzxid: " ++ i s.pzxid.toInt ++ " \x7d"

/-- A result as a structural dump shows it. -/
def OpResult.debug : OpResult → String
  | .created p => "Created \x7b path: " ++ Escaped.string p ++ " \x7d"
  | .deleted => "Deleted"
  | .dataSet s => "DataSet \x7b stat: " ++ s.debug ++ " \x7d"
  | .checked => "Checked"
  | .failed c => "Failed \x7b code: " ++ c.variant ++ " \x7d"

/-- A reply body as a structural dump shows it, for messages about an unexpected body. -/
def ResponsePayload.debug : ResponsePayload → String
  | .empty => "Empty"
  | .record r => "Record(" ++ Value.debugRecord r.schema.name (r.schema.fields.map Field.name)
      r.values ++ ")"
  | .transaction rs => "Transaction(TransactionResponse \x7b results: " ++
      Value.bracketed (rs.map OpResult.debug) ++ " \x7d)"

namespace Response

/-- A reply to request `xid`. -/
def reply (xid : Int32) (zxid : Int64) (err : ExceptionCode) (payload : ResponsePayload) :
    Response :=
  ⟨xid, Long.ofInt64 zxid, err.value, payload⟩

/-- The header as a record. -/
def header (r : Response) : Record :=
  ⟨Catalog.replyHeader, [.int r.xid, .long r.zxid, .int r.err], none⟩

/-- The reply's bytes: header and body, without a length. -/
def toBytes (r : Response) : Except Error (List UInt8) := do
  let body ← match r.payload with
    | .empty => pure 0
    | .record rec => rec.byteLength
    | .transaction rs => resultsLength rs
  let head ← r.header.byteLength
  Writer.run (do
    r.header.put
    match r.payload with
    | .empty => pure ()
    | .record rec => rec.put
    | .transaction rs => putResults rs) (head + body)

/-- Reads a reply header: its fields and the number of bytes read. -/
def readHeader (buf : List UInt8) : Except Error (Int32 × Long × Int32 × Nat) := do
  let (h, offset) ← (Record.new Catalog.replyHeader).deserialize buf 0
  pure (← h.getInt "xid", ← h.getLong "zxid", ← h.getInt "err", offset)

/-- Reads the reply to a request, under a chroot. -/
def decode (req : Request) (buf : List UInt8) (chroot : Option String) : Except Error Response := do
  let (xid, zxid, err, offset) ← readHeader buf
  let payload ← match req.op with
    | .multi =>
      if offset < buf.length then do
        let (rs, _) ← deserializeResults buf offset chroot
        pure (ResponsePayload.transaction rs)
      else pure ResponsePayload.empty
    | op =>
      if err ≠ 0 then pure ResponsePayload.empty
      else match Catalog.responseSchema? op with
        | some s => do
          let (rec, _) ← ((Record.new s).setChroot chroot).deserialize buf offset
          pure (ResponsePayload.record rec)
        | none => pure ResponsePayload.empty
  pure ⟨xid, zxid, err, payload⟩

/-- Reads a watch notification, under a chroot. -/
def decodeNotification (buf : List UInt8) (chroot : Option String) : Except Error Response := do
  let (xid, zxid, err, offset) ← readHeader buf
  if xid ≠ -1 then throw (.protocol (.notificationXid xid))
  let (rec, _) ← ((Record.new Catalog.watcherEvent).setChroot chroot).deserialize buf offset
  pure ⟨xid, zxid, err, .record rec⟩

/-- Success, or the error for the reply's result code, about `path`. -/
def check (r : Response) (path : Option String) : Except Error Unit :=
  if r.err = 0 then .ok () else .error (Error.ofCode r.err path)

/-- The reply's record body. -/
def record (r : Response) : Except Error Record :=
  match r.payload with
  | .record rec => .ok rec
  | other => .error (.protocol (.expectedRecord other.debug))

/-- The reply's transaction results. -/
def transaction (r : Response) : Except Error (List OpResult) :=
  match r.payload with
  | .transaction rs => .ok rs
  | other => .error (.protocol (.expectedTransaction other.debug))

end Response

/-- The event of a `WatcherEvent` record. -/
def WatchedEvent.ofRecord (r : Record) : Except Error WatchedEvent := do
  let t ← EventType.ofValue (← r.getInt "type")
  let p ← r.getUString "path"
  pure ⟨t, p⟩

/-- The `WatcherEvent` record of an event type, a session state and a path. -/
def WatchedEvent.record (type state : Int32) (path : Option String) : Record :=
  ⟨Catalog.watcherEvent, [.int type, .int state, .ustring path], none⟩

end Ensemble
