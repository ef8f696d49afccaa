import Ensemble.Client.Tree
import Ensemble.Client.Transaction

/-! # A scripted session

A scripted session answers each request with the next of a list of canned answers, and records
everything the client does to it, so that a run of the client can be replayed and inspected
without a server.

A canned answer is a lost connection, the bytes of a reply, or a reply to build: its
transaction id, result code and body. A built reply takes the next request id (1, 2, … over the
built replies of the session) and its body is nothing, a list of transaction results, or a
record of a given class or else of the reply class of the request's operation. An operation
without a reply class, other than a transaction, gets no body, and the canned body is not read.
The reply is written out and read back like the bytes of a reply, under the request's chroot.
When the answers run out the session reports `no scripted reply`.

A watch notification is written as a reply with `xid` and `zxid` `-1`, read back under the
chroot of the last `connect` (none before the first), and fires the watchers it takes.

The session records the requests it was sent, the waits, the registrations with their outcomes,
the watchers fired, the credentials added and the configurations connected. `clearLog` empties
the records, so that each step of a run can be reported on its own.
-/

namespace Ensemble

/-- The body of a reply to build. Its parts are read only when a reply is built for an operation
that can carry them, so a body that cannot be read is no failure for any other operation. -/
inductive CannedBody where
  /-- No body. -/
  | empty
  /-- The results of a transaction, or why they cannot be read. -/
  | results (rs : Except Error (List OpResult))
  /-- A record of the class named by a module and a name, or else of the reply class of the
  request's operation, whose fields `fill` sets for a class. -/
  | record (cls : Option (String × String)) (fill : Schema → Except Error Record)

/-- The body of a built reply to a request for an operation. An operation with no reply class
other than `multi` gets no body whatever the canned body is. -/
def CannedBody.payload (b : CannedBody) (op : OpCode) : Except Error ResponsePayload :=
  let reply := Catalog.responseSchema? op
  if reply.isNone && op != .multi then .ok .empty
  else
    match b with
    | .empty => .ok .empty
    | .results rs => .transaction <$> rs
    | .record (some (m, n)) fill => do .record <$> fill (← Catalog.find m n)
    | .record none fill =>
      match reply with
      | some s => .record <$> fill s
      | none => .ok .empty

/-- One canned answer of a scripted session. -/
inductive Canned where
  /-- The connection is lost before the request reaches a server. -/
  | disconnect
  /-- The bytes of a reply, without its length. -/
  | raw (bytes : List UInt8)
  /-- A reply to build from its transaction id, result code and body. -/
  | reply (zxid : Int64) (err : Int32) (body : CannedBody)

/-- A scripted session: the answers still to give, the session's settings and what it saw. -/
structure Scripted where
  replies : List Canned
  sessionTimeout : Nat := 30000
  built : Nat := 0
  chroot : Option String := none
  registry : Registry := {}
  requests : List Request := []
  delays : List Nat := []
  registrations : List (WatcherKind × String × String × Registration) := []
  fired : List (String × WatchedEvent) := []
  auth : List (String × List UInt8) := []
  connects : List ClientConfig := []

namespace Scripted

/-- The session with its records emptied. -/
def clearLog (s : Scripted) : Scripted :=
  { s with requests := [], delays := [], registrations := [], fired := [], auth := [],
           connects := [] }

/-- The reply built from a canned reply, for a request, with request id `xid`. -/
def build (req : Request) (xid : Nat) (zxid : Int64) (err : Int32) (body : CannedBody) :
    Except Error Response := do
  let code ← ExceptionCode.ofValue err
  let payload ← body.payload req.op
  let bytes ← (Response.reply (Int32.ofNat xid) zxid code payload).toBytes
  Response.decode req bytes req.chroot

/-- Answers a request with the next canned answer. -/
def answer (s : Scripted) (req : Request) : Except Error Response × Scripted :=
  let s := { s with requests := s.requests ++ [req] }
  match s.replies with
  | [] => (.error (.protocol .noScriptedReply), s)
  | .disconnect :: rest => (.error (.exception { code := .connectionLoss }), { s with replies := rest })
  | .raw bytes :: rest => (Response.decode req bytes req.chroot, { s with replies := rest })
  | .reply zxid err body :: rest =>
    (build req (s.built + 1) zxid err body, { s with replies := rest, built := s.built + 1 })

/-- Leaves a watcher in the session's registry and records the outcome. -/
def register (s : Scripted) (k : WatcherKind) (path w : String) : Registration × Scripted :=
  match s.registry.register k path w with
  | .ok (o, r) => (o, { s with registry := r, registrations := s.registrations ++ [(k, path, w, o)] })
  | .error _ => (.occupied, s)

/-- The session as a client sees it. -/
def link : Link (StateM Scripted) where
  queue req := modifyGet fun s => s.answer req
  register k path w := modifyGet fun s => s.register k path w
  sessionTimeout := do pure (← get).sessionTimeout
  sleep d := modify fun s => { s with delays := s.delays ++ [d] }
  addAuth scheme auth := modify fun s => { s with auth := s.auth ++ [(scheme, auth)] }
  connect cfg := do
    modify fun s => { s with chroot := cfg.chroot, connects := s.connects ++ [cfg] }
    pure (.ok ())
  close := pure (.ok ())
  state := pure .disconnected
  sessionId := pure none
  sessionPassword := pure none

/-- A client of a scripted session. -/
def client (config : ClientConfig) : Client (StateM Scripted) :=
  ⟨config, link⟩

/-- More nodes than this cannot be listed in one walk: each listing takes an answer. -/
def walkBound (s : Scripted) : Nat :=
  s.replies.length + 1

/-- The event of a notification for an event type, a session state and a path, as it arrives
under the session's chroot. -/
def notification (s : Scripted) (type state : Int32) (path : Option String) :
    Except Error WatchedEvent := do
  let bytes ← (Response.reply (-1) (-1) .ok (.record (WatchedEvent.record type state path))).toBytes
  let note ← Response.decodeNotification bytes s.chroot
  WatchedEvent.ofRecord (← note.record)

/-- Delivers a notification: fires the watchers its event takes. Returns the event and the
number of watchers fired. -/
def notify (s : Scripted) (type state : Int32) (path : Option String) :
    Except Error (WatchedEvent × Nat) × Scripted :=
  match s.notification type state path with
  | .error e => (.error e, s)
  | .ok e =>
    let (taken, r) := s.registry.take e
    (.ok (e, taken.length), { s with registry := r, fired := s.fired ++ taken.map (·, e) })

end Scripted

end Ensemble
