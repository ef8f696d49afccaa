import Ensemble.Client.Link
import Ensemble.Transaction.Codec

/-! # The client

A client holds a configuration and a session (`Link`). Each call checks its arguments before it
sends anything: the path, then the data (at most 1 MiB), then the ACLs (not empty), as far as the
call takes them. It then builds one request, applies the configured chroot and sends it, trying
again after a lost connection as the retry policy allows (`send`). A reply whose header reports a
lost connection counts as one, about the call's path.

Most calls then turn a failure code of the reply into the error for that code and path
(`execute`). `exists?` reads a missing node as `none` instead. A watcher is handed to the session
only after a successful reply, at the caller's path: a data watch for `getData` and for `exists?`
on a node that exists, an existence watch for `exists?` on a missing node, a child watch for
`getChildren`.
-/

namespace Ensemble

/-- A client: its configuration and the session that carries its requests. -/
structure Client (m : Type → Type) where
  config : ClientConfig
  link : Link m

namespace Client

/-- The largest data a node may hold, in bytes. -/
def dataLimit : Nat := 1048576

/-- Refuses data longer than `dataLimit`. -/
def checkData (data : Option (List UInt8)) : Except Error Unit :=
  match data with
  | some d => if d.length > dataLimit then .error (.invalidArgument (.dataTooLarge d.length)) else .ok ()
  | none => .ok ()

/-- Refuses an empty ACL list. -/
def checkAcls (acls : List Acl) : Except Error Unit :=
  if acls.isEmpty then .error (.invalidArgument .emptyAcls) else .ok ()

variable {m : Type → Type} [Monad m]

/-- A result of the library as a step of a call. -/
def lift {α : Type} (x : Except Error α) : ExceptT Error m α :=
  ExceptT.mk (pure x)

/-- One attempt: the session's reply, where a reply reporting a lost connection is that error. -/
def sendOnce (c : Client m) (req : Request) (path : Option String) : m (Except Error Response) := do
  match ← c.link.queue req with
  | .ok r =>
    pure (if r.err = ExceptionCode.connectionLoss.value then .error (Error.ofCode r.err path)
      else .ok r)
  | .error e => pure (.error e)

/-- Sends a request under the configured chroot, retrying a lost connection. -/
def send (c : Client m) (req : Request) (path : Option String) : ExceptT Error m Response :=
  let req := req.setChroot c.config.chroot
  ExceptT.mk (c.config.retry.run c.link.sessionTimeout c.link.sleep fun _ => c.sendOnce req path)

/-- Sends a request and fails with the reply's failure code, about `path`. -/
def execute (c : Client m) (req : Request) (path : String) : ExceptT Error m Response := do
  let r ← c.send req (some path)
  lift (r.check (some path))
  pure r

/-- A request with a record body. -/
def request (op : OpCode) (schema : Schema) (values : List Value) : Request :=
  Request.new op (.record ⟨schema, values, none⟩)

/-- The `stat` field of a reply's record. -/
def statOf (r : Response) : Except Error Stat := do
  Stat.ofRecord (← (← r.record).getRecord "stat")

/-- Creates a node; returns the path the server gave it (empty if the reply names none). -/
def create (c : Client m) (path : String) (data : Option (List UInt8)) (acls : List Acl)
    (mode : CreateMode) : ExceptT Error m String := do
  lift (Path.validate path)
  lift (checkData data)
  lift (checkAcls acls)
  let r ← c.execute (Request.new .create (.record (Op.create path data acls mode).toRecord)) path
  let created ← lift ((← lift r.record).getUString "path")
  pure (created.getD "")

/-- Removes a node if its version matches (`-1` matches any). -/
def remove (c : Client m) (path : String) (version : Int32) : ExceptT Error m Unit := do
  lift (Path.validate path)
  discard <| c.execute (Request.new .delete (.record (Op.delete path version).toRecord)) path

/-- Replaces a node's data if its version matches; returns the new metadata. -/
def setData (c : Client m) (path : String) (data : Option (List UInt8)) (version : Int32) :
    ExceptT Error m Stat := do
  lift (Path.validate path)
  lift (checkData data)
  let r ← c.execute (Request.new .setData (.record (Op.setData path data version).toRecord)) path
  lift (statOf r)

/-- A node's data and metadata; a watcher, if given, hears of the next change of the data. -/
def getData (c : Client m) (path : String) (watcher : Option String) :
    ExceptT Error m (Option (List UInt8) × Stat) := do
  lift (Path.validate path)
  let r ← c.execute (request .getData Catalog.getDataRequest
    [.ustring (some path), .boolean watcher.isSome]) path
  if let some w := watcher then discard <| (c.link.register .data path w : m Registration)
  let data ← lift ((← lift r.record).getBuffer "data")
  pure (data, ← lift (statOf r))

/-- Replaces a node's ACLs if its ACL version matches; returns the new metadata. -/
def setAcl (c : Client m) (path : String) (acls : List Acl) (version : Int32) :
    ExceptT Error m Stat := do
  lift (Path.validate path)
  lift (checkAcls acls)
  let r ← c.execute (request .setAcl Catalog.setAclRequest
    [.ustring (some path), Acl.toVector acls, .int version]) path
  lift (statOf r)

/-- A node's ACLs and metadata. -/
def getAcl (c : Client m) (path : String) : ExceptT Error m (List Acl × Stat) := do
  lift (Path.validate path)
  let r ← c.execute (request .getAcl Catalog.getAclRequest [.ustring (some path)]) path
  let acls ← lift (Acl.ofVector (← lift ((← lift r.record).getVector "acl")))
  pure (acls, ← lift (statOf r))

/-- A node's metadata, or `none` if there is no node at the path. A watcher, if given, hears of
the next change of the node's data, or of its creation if it is missing. -/
def exists? (c : Client m) (path : String) (watcher : Option String) :
    ExceptT Error m (Option Stat) := do
  lift (Path.validate path)
  let r ← c.send (request .exists Catalog.existsRequest
    [.ustring (some path), .boolean watcher.isSome]) (some path)
  let found ← match r.check (some path) with
    | .ok () => pure true
    | .error e => if e.code? = some .noNode then pure false else throw e
  if let some w := watcher then
    discard <| (c.link.register (if found then .data else .existence) path w : m Registration)
  if found then some <$> lift (statOf r) else pure none

/-- The name a child list holds, or the error for a value that is not one. -/
def childName : Value → Except Error String
  | .ustring (some name) => .ok name
  | v => .error (.serialization (.notChildName v))

/-- A node's children, in the order the server lists them, and its metadata. A watcher, if
given, hears of the next change of the children. -/
def getChildren (c : Client m) (path : String) (watcher : Option String) :
    ExceptT Error m (List String × Stat) := do
  lift (Path.validate path)
  let r ← c.execute (request .getChildren2 Catalog.getChildren2Request
    [.ustring (some path), .boolean watcher.isSome]) path
  if let some w := watcher then discard <| (c.link.register .child path w : m Registration)
  let items ← lift ((← lift r.record).getVector "children")
  let children ← lift ((items.getD []).mapM childName)
  pure (children, ← lift (statOf r))

/-- Waits until the server that serves the session has caught up with the leader on a path. -/
def sync (c : Client m) (path : String) : ExceptT Error m Unit := do
  lift (Path.validate path)
  discard <| c.execute (request .sync Catalog.syncRequest [.ustring (some path)]) path

/-- Adds credentials to the session; the scheme must not be empty. -/
def addAuth (c : Client m) (scheme : String) (auth : List UInt8) : ExceptT Error m Unit := do
  if scheme.isEmpty then throw (.invalidArgument .emptyScheme)
  (c.link.addAuth scheme auth : m Unit)

/-- Opens the session for the client's configuration. -/
def connect (c : Client m) : ExceptT Error m Unit :=
  ExceptT.mk (c.link.connect c.config)

/-- Closes the session. -/
def close (c : Client m) : ExceptT Error m Unit :=
  ExceptT.mk c.link.close

end Client

end Ensemble
