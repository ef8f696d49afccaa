import Ensemble.Transaction.Codec

/-! # Requests

A request is a header, holding the request's `xid` and its operation's code, and a body: a
record, a transaction, or nothing. On the wire it is framed by its length: a four-byte length,
the header, then the body.

A request carries the chroot under which it was made. Setting it treats the empty chroot and
`/` as no chroot at all, and hands the chroot to the body, which applies it to its paths.

Decoding a request reads its header, then a transaction for `multi`, the request class of the
operation when it has one, and nothing otherwise; bytes after the body are ignored.
-/

namespace Ensemble

/-- The body of a request. -/
inductive RequestPayload where
  | empty
  | record (r : Record)
  | transaction (t : Transaction)

/-- A request: header fields, body, and the chroot it was made under. -/
structure Request where
  xid : Int32 := 0
  op : OpCode
  payload : RequestPayload
  chroot : Option String := none

namespace Request

/-- A new request with `xid` zero and no chroot. -/
def new (op : OpCode) (payload : RequestPayload) : Request :=
  { op := op, payload := payload }

/-- The request with its chroot set; the empty chroot and `/` clear it. -/
def setChroot (r : Request) (c : Option String) : Request :=
  let c := c.filter fun s => s ≠ "" && s ≠ "/"
  { r with
    chroot := c
    payload := match r.payload with
      | .empty => .empty
      | .record rec => .record (rec.setChroot c)
      | .transaction t => .transaction { t with chroot := c } }

/-- The request's record body, if it has one. -/
def record? (r : Request) : Option Record :=
  match r.payload with
  | .record rec => some rec
  | _ => none

/-- The `path` field of the request's record body, when it has one and it is present. -/
def path? (r : Request) : Option String :=
  match r.record? with
  | some rec =>
    match rec.getUString "path" with
    | .ok p => p
    | .error _ => none
  | none => none

/-- The header as a record. -/
def header (r : Request) : Record :=
  ⟨Catalog.requestHeader, [.int r.xid, .int r.op.value], none⟩

/-- The number of bytes of header and body. -/
def byteLength (r : Request) : Except Error Nat := do
  let body ← match r.payload with
    | .empty => pure 0
    | .record rec => rec.byteLength
    | .transaction t => t.byteLength
  let head ← r.header.byteLength
  pure (head + body)

/-- Writes header and body. -/
def putBody (r : Request) : Writer Unit := do
  r.header.put
  match r.payload with
  | .empty => pure ()
  | .record rec => rec.put
  | .transaction t => t.put

/-- The framed request: its length, header and body. -/
def toBytes (r : Request) : Except Error (List UInt8) := do
  let size ← r.byteLength
  Writer.run (do Writer.int (Int32.ofNat size); r.putBody) (4 + size)

/-- Appends the framed request to the bytes already in `dst`. -/
def encodeInto (r : Request) (dst : List UInt8) : Except Error (List UInt8) :=
  (dst ++ ·) <$> r.toBytes

/-- Reads a request from a frame without its length. -/
def decode (frame : List UInt8) : Except Error Request := do
  let (h, offset) ← (Record.new Catalog.requestHeader).deserialize frame 0
  let xid ← h.getInt "xid"
  let op ← OpCode.ofValue (← h.getInt "type")
  let payload ← match op, Catalog.requestSchema? op with
    | .multi, _ => do
      let (t, _) ← Transaction.deserialize frame offset
      pure (RequestPayload.transaction t)
    | _, some s => do
      let (rec, _) ← (Record.new s).deserialize frame offset
      pure (RequestPayload.record rec)
    | _, none => pure RequestPayload.empty
  pure { xid := xid, op := op, payload := payload }

end Request

/-- The `xid` at the front of a frame. -/
def peekXid (frame : List UInt8) : Except Error Int32 :=
  (·.1) <$> Reader.int frame

end Ensemble
