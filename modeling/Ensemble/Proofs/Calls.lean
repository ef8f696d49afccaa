import Ensemble.Client.Transaction
import Ensemble.Proofs.Wire

/-! # The calls that send one request, against a replayed session

`Client.Call` lists the calls of a client that send one request: the nine node calls and the
commit of a transaction, each with its arguments. Each is made of the same three steps: it checks
its arguments (`Call.validate`), sends its request (`Call.request`, about the path `Call.path?`),
and builds its answer from the reply.

A `Replay` session answers the client's `i`-th request with `answers i` and keeps every request
it was sent; it accepts every watcher and its waits take no time. The client is deterministic,
so the answers that any connection gives in one run form such a sequence, however it chooses
them: a statement over all `answers` is one over every connection.

The last step of each call does not touch the session (`Replay.Blind`): it reads the reply and
hands the watcher, if any, to the session, which in a replay changes nothing. So each call is
its checks, then `send`, then a step of that kind (`Call.run_eq`). The checks and the request
come out of the call's own code here; the later modules reason from this form and never open
a call again.
-/

namespace Ensemble

namespace Client

section Lift

variable {m : Type → Type} [Monad m] [LawfulMonad m]

omit [LawfulMonad m] in
theorem lift_ok {α : Type} (a : α) : (lift (.ok a) : ExceptT Error m α) = pure a := rfl

theorem lift_error_bind {α β : Type} (e : Error) (f : α → ExceptT Error m β) :
    (lift (.error e) >>= f : ExceptT Error m β) = lift (.error e) := by
  apply ExceptT.ext
  simp [lift, ExceptT.run_bind, ExceptT.run_mk]

/-- `lift` carries the steps of a result over to the steps of a call. -/
theorem lift_bind {α β : Type} (x : Except Error α) (f : α → Except Error β) :
    (lift (x >>= f) : ExceptT Error m β) = lift x >>= fun a => lift (f a) := by
  cases x with
  | error e => exact (lift_error_bind e _).symm
  | ok a => rw [lift_ok, pure_bind]; rfl

theorem discard_eq {α : Type} (x : ExceptT Error m α) : discard x = x >>= fun _ => pure () := by
  rw [Functor.discard, Functor.mapConst, bind_pure_comp]
  rfl

theorem forM_lift (ops : List Op) :
    (ops.forM fun op => (lift op.validate : ExceptT Error m Unit)) = lift (ops.forM Op.validate) := by
  induction ops with
  | nil => rfl
  | cons op ops ih =>
    show (lift op.validate >>= fun _ => ops.forM _) =
      lift (op.validate >>= fun _ => ops.forM Op.validate)
    rw [ih, lift_bind]

end Lift

/-- A call of the client that sends one request, with its arguments. -/
inductive Call where
  | create (path : String) (data : Option (List UInt8)) (acls : List Acl) (mode : CreateMode)
  | remove (path : String) (version : Int32)
  | setData (path : String) (data : Option (List UInt8)) (version : Int32)
  | getData (path : String) (watcher : Option String)
  | setAcl (path : String) (acls : List Acl) (version : Int32)
  | getAcl (path : String)
  | exists (path : String) (watcher : Option String)
  | getChildren (path : String) (watcher : Option String)
  | sync (path : String)
  | commit (ops : List Op)

namespace Call

/-- What a call answers. -/
@[reducible] def Result : Call → Type
  | .create .. => String
  | .remove .. | .sync _ => Unit
  | .setData .. | .setAcl .. => Stat
  | .getData .. => Option (List UInt8) × Stat
  | .getAcl _ => List Acl × Stat
  | .exists .. => Option Stat
  | .getChildren .. => List String × Stat
  | .commit _ => List OpResult

/-- Makes a call through a client. -/
def run {m : Type → Type} [Monad m] (c : Client m) : (call : Call) → ExceptT Error m call.Result
  | .create p d a md => c.create p d a md
  | .remove p v => c.remove p v
  | .setData p d v => c.setData p d v
  | .getData p w => c.getData p w
  | .setAcl p a v => c.setAcl p a v
  | .getAcl p => c.getAcl p
  | .exists p w => c.exists? p w
  | .getChildren p w => c.getChildren p w
  | .sync p => c.sync p
  | .commit ops => c.commit ops

/-- The checks a call makes of its arguments before it sends anything: those of the operation
of its kind for a change of a node, the path and then the ACLs for `setAcl`, every operation for
a transaction, and the path otherwise. -/
def validate : Call → Except Error Unit
  | .create p d a md => (Op.create p d a md).validate
  | .setData p d v => (Op.setData p d v).validate
  | .setAcl p a _ => do
    Path.validate p
    checkAcls a
  | .commit ops => ops.forM Op.validate
  | .remove p _ | .getData p _ | .getAcl p | .exists p _ | .getChildren p _ | .sync p =>
    Path.validate p

/-- The request a call sends, before the chroot is applied. -/
def request : Call → Request
  | .create p d a md => Request.new .create (.record (Op.create p d a md).toRecord)
  | .remove p v => Request.new .delete (.record (Op.delete p v).toRecord)
  | .setData p d v => Request.new .setData (.record (Op.setData p d v).toRecord)
  | .getData p w =>
    Client.request .getData Catalog.getDataRequest [.ustring (some p), .boolean w.isSome]
  | .setAcl p a v =>
    Client.request .setAcl Catalog.setAclRequest [.ustring (some p), Acl.toVector a, .int v]
  | .getAcl p => Client.request .getAcl Catalog.getAclRequest [.ustring (some p)]
  | .exists p w =>
    Client.request .exists Catalog.existsRequest [.ustring (some p), .boolean w.isSome]
  | .getChildren p w =>
    Client.request .getChildren2 Catalog.getChildren2Request [.ustring (some p), .boolean w.isSome]
  | .sync p => Client.request .sync Catalog.syncRequest [.ustring (some p)]
  | .commit ops => Request.new .multi (.transaction ⟨ops, none⟩)

/-- The path that a call's errors are about: the caller's path, and none for a transaction. -/
def path? : Call → Option String
  | .create p .. | .remove p _ | .setData p .. | .getData p _ | .setAcl p .. | .getAcl p
  | .exists p _ | .getChildren p _ | .sync p => some p
  | .commit _ => none

/-- Whether a call turns a failure code of the reply into an error as it stands: all but
`exists`, which reads a missing node as `none`, and `commit`, which reads a list of results. -/
def executes : Call → Bool
  | .exists .. | .commit _ => false
  | _ => true

end Call

end Client

/-- A session that answers the client's `i`-th request with `answers i` and keeps the requests it
was sent. -/
structure Replay where
  answers : Nat → Except Error Response
  sent : List Request := []

namespace Replay

/-- The session as a client sees it: every watcher is accepted, and waits take no time. -/
def link : Link (StateM Replay) where
  queue req := modifyGet fun s => (s.answers s.sent.length, { s with sent := s.sent ++ [req] })
  register _ _ _ := pure .registered
  sessionTimeout := pure 30000
  sleep _ := pure ()
  addAuth _ _ := pure ()
  connect _ := pure (.ok ())
  close := pure (.ok ())
  state := pure .disconnected
  sessionId := pure none
  sessionPassword := pure none

/-- A client of a replayed session. -/
def client (cfg : ClientConfig) : Client (StateM Replay) :=
  ⟨cfg, link⟩

@[simp] theorem client_link (cfg : ClientConfig) : (client cfg).link = link := rfl

/-- A step of a call that neither reads nor changes the session: it has one outcome, whatever
the session. -/
def Blind {α : Type} (x : ExceptT Error (StateM Replay) α) : Prop :=
  ∃ y, ∀ s, x.run.run s = (y, s)

/-! ### Steps that do not touch the session

Stated as rewrites, so that `simp` takes a step apart down to its last result. -/

@[simp] theorem blind_pure {α : Type} (a : α) : Blind (pure a : ExceptT Error (StateM Replay) α) :=
  ⟨.ok a, fun _ => rfl⟩

@[simp] theorem blind_lift {α : Type} (x : Except Error α) :
    Blind (Client.lift x : ExceptT Error (StateM Replay) α) :=
  ⟨x, fun _ => rfl⟩

@[simp] theorem blind_throw {α : Type} (e : Error) :
    Blind (throw e : ExceptT Error (StateM Replay) α) :=
  ⟨.error e, fun _ => rfl⟩

@[simp] theorem blind_lift_bind {α β : Type} {x : Except Error α}
    {f : α → ExceptT Error (StateM Replay) β} :
    Blind (Client.lift x >>= f) ↔ ∀ a, x = .ok a → Blind (f a) := by
  cases x with
  | error e => simp [Client.lift_error_bind]
  | ok a => simp [Client.lift_ok]

@[simp] theorem blind_ite {α : Type} {c : Prop} [Decidable c]
    {x y : ExceptT Error (StateM Replay) α} :
    Blind (if c then x else y) ↔ (c → Blind x) ∧ (¬ c → Blind y) := by
  split <;> simp_all

@[simp] theorem map_lift {α β : Type} (f : α → β) (x : Except Error α) :
    f <$> (Client.lift x : ExceptT Error (StateM Replay) α) = Client.lift (f <$> x) := by
  cases x <;> rfl

@[simp] theorem discard_pure {α : Type} (a : α) :
    discard (pure a : ExceptT Error (StateM Replay) α) = pure () := rfl

@[simp] theorem register_eq (k : WatcherKind) (p w : String) :
    (liftM (link.register k p w) : ExceptT Error (StateM Replay) Registration) =
      pure .registered := rfl

/-- After a step that does not touch the session, the outcome is that step's, applied to the
outcome of what came before, and the session is as that left it. -/
theorem run_bind_of_blind {α β : Type} {x : ExceptT Error (StateM Replay) α}
    {k : α → ExceptT Error (StateM Replay) β} {f : α → Except Error β}
    (hk : ∀ a s, (k a).run.run s = (f a, s)) (s : Replay) :
    (x >>= k).run.run s = ((x.run.run s).1 >>= f, (x.run.run s).2) := by
  simp only [ExceptT.run_bind, StateT.run_bind]
  rcases x.run.run s with ⟨y | a, t⟩
  · rfl
  · exact hk a t

end Replay

theorem Response.check_of_ne {r : Response} (path : Option String) (h : r.err ≠ 0) :
    r.check path = .error (Error.ofCode r.err path) := by
  simp [Response.check, h]

namespace Client.Call

open Replay

/-- A call made against a replayed session that has not been sent anything yet. -/
def replay (call : Call) (cfg : ClientConfig) (answers : Nat → Except Error Response) :
    Except Error call.Result × Replay :=
  (call.run (client cfg)).run.run { answers }

/-- Every call checks its arguments, sends its request about its path, and builds its answer
from the reply without touching the session; a call that `executes` fails on a failure code of
the reply with the error for that code and its path. -/
theorem run_eq (call : Call) :
    ∃ k : Response → ExceptT Error (StateM Replay) call.Result, (∀ r, Blind (k r)) ∧
      (call.executes = true → ∀ r, r.err ≠ 0 → k r = lift (.error (Error.ofCode r.err call.path?))) ∧
      ∀ cfg, call.run (client cfg) =
        lift call.validate >>= fun _ => (client cfg).send call.request call.path? >>= k := by
  -- the last step is what is left of the call's code once the checks, gathered into one `lift`,
  -- and `send` are read off; it is fixed by the last goal, hence `rotate_right`
  cases call with
  | create p d a md =>
    refine ⟨?_, fun r => ?_, fun _ r hr => ?_, fun cfg => ?_⟩
    rotate_right
    · simp only [run, validate, Op.validate, lift_bind, bind_assoc, Client.create, execute]; rfl
    · simp
    · simp only [Response.check_of_ne _ hr, lift_error_bind]; rfl
  | remove p v =>
    refine ⟨?_, fun r => ?_, fun _ r hr => ?_, fun cfg => ?_⟩
    rotate_right
    · simp only [run, validate, bind_assoc, Client.remove, execute, discard_eq]; rfl
    · simp
    · simp only [Response.check_of_ne _ hr, lift_error_bind]; rfl
  | setData p d v =>
    refine ⟨?_, fun r => ?_, fun _ r hr => ?_, fun cfg => ?_⟩
    rotate_right
    · simp only [run, validate, Op.validate, lift_bind, bind_assoc, Client.setData, execute]; rfl
    · simp
    · simp only [Response.check_of_ne _ hr, lift_error_bind]; rfl
  | getData p w =>
    refine ⟨?_, fun r => ?_, fun _ r hr => ?_, fun cfg => ?_⟩
    rotate_right
    · simp only [run, validate, bind_assoc, Client.getData, execute, client_link]; rfl
    · cases w <;> simp
    · simp only [Response.check_of_ne _ hr, lift_error_bind]; rfl
  | setAcl p a v =>
    refine ⟨?_, fun r => ?_, fun _ r hr => ?_, fun cfg => ?_⟩
    rotate_right
    · simp only [run, validate, lift_bind, bind_assoc, Client.setAcl, execute]; rfl
    · simp
    · simp only [Response.check_of_ne _ hr, lift_error_bind]; rfl
  | getAcl p =>
    refine ⟨?_, fun r => ?_, fun _ r hr => ?_, fun cfg => ?_⟩
    rotate_right
    · simp only [run, validate, bind_assoc, Client.getAcl, execute]; rfl
    · simp
    · simp only [Response.check_of_ne _ hr, lift_error_bind]; rfl
  | «exists» p w =>
    refine ⟨?_, fun r => ?_, fun hx _ _ => ?_, fun cfg => ?_⟩
    rotate_right
    · simp only [run, validate, Client.exists?, client_link]; rfl
    · cases w <;> split <;> simp
    · cases hx
  | getChildren p w =>
    refine ⟨?_, fun r => ?_, fun _ r hr => ?_, fun cfg => ?_⟩
    rotate_right
    · simp only [run, validate, bind_assoc, Client.getChildren, execute, client_link]; rfl
    · cases w <;> simp
    · simp only [Response.check_of_ne _ hr, lift_error_bind]; rfl
  | sync p =>
    refine ⟨?_, fun r => ?_, fun _ r hr => ?_, fun cfg => ?_⟩
    rotate_right
    · simp only [run, validate, bind_assoc, Client.sync, execute, discard_eq]; rfl
    · simp
    · simp only [Response.check_of_ne _ hr, lift_error_bind]; rfl
  | commit ops =>
    refine ⟨?_, fun r => ?_, fun hx _ _ => ?_, fun cfg => ?_⟩
    rotate_right
    · simp only [run, validate, Client.commit, forM_lift]; rfl
    -- a reply that is no list of results is checked before it is refused
    · split <;> simp <;> intros <;> split <;> simp
    · cases hx

end Client.Call

end Ensemble
