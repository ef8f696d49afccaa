import Ensemble.Proofs.Requests
import Ensemble.Proofs.PathGrammar
import Ensemble.Client.Tree

/-! # Every request a session is handed

A program uses a client through a list of actions (`Client.Action`): the calls that send one
request, the calls over a subtree (`listSubTree`, `removeRecursive`, `mkdirp`), which make many
such calls with paths built from the caller's path and from the names the server lists, and the
calls that send no request. `Client.session` makes the actions one after another; an action
that fails does not stop the next.

Whatever the actions, their arguments and the answers of the session, every request the session
is handed is the request of a call whose checks passed (`Replay.Keeps`, `Action.keeps_issued`):
a call checks its path before it sends, so a child path built from a name the server invented is
refused before it is sent. With the chroot of a checked configuration such a request is sound
(`Call.sound_request`), which gives `Client.session_requests_sound`. Its frame reads back when
every length its body carries is below `2 ^ 31`, and no check bounds a path's length: a read of
a path of `2 ^ 31` bytes is handed to the session in a frame that does not read back
(`Client.session_sends_wrapped_path`).
-/

namespace Ensemble

namespace Replay

/-- A computation of the session that hands it only requests satisfying `P`: from a session
whose requests all satisfy `P` it leaves one whose requests all do. -/
def Keeps (P : Request → Prop) {α : Type} (x : StateM Replay α) : Prop :=
  ∀ s, (∀ q ∈ s.sent, P q) → ∀ q ∈ (x.run s).2.sent, P q

variable {P : Request → Prop}

theorem keeps_pure {α : Type} (a : α) : Keeps P (pure a) :=
  fun _ hs => hs

theorem Keeps.bind {α β : Type} {x : StateM Replay α} {f : α → StateM Replay β}
    (hx : Keeps P x) (hf : ∀ a, Keeps P (f a)) : Keeps P (x >>= f) :=
  fun s hs => hf _ _ (hx s hs)

theorem keeps_of_blind {α : Type} {x : ExceptT Error (StateM Replay) α} (h : Blind x) :
    Keeps P x.run := by
  obtain ⟨y, hy⟩ := h
  intro s hs
  rw [hy s]
  exact hs

/-- The steps of a call in turn: the second starts only if the first succeeds. -/
theorem Keeps.except_bind {α β : Type} {x : ExceptT Error (StateM Replay) α}
    {f : α → ExceptT Error (StateM Replay) β} (hx : Keeps P x.run) (hf : ∀ a, Keeps P (f a).run) :
    Keeps P (x >>= f).run := by
  rw [ExceptT.run_bind]
  refine hx.bind fun r => ?_
  cases r with
  | ok a => exact hf a
  | error e => exact keeps_pure _

/-- A step and its handler: the handler runs only if the step fails. -/
theorem Keeps.tryCatch {α : Type} {x : ExceptT Error (StateM Replay) α}
    {h : Error → ExceptT Error (StateM Replay) α} (hx : Keeps P x.run)
    (hh : ∀ e, Keeps P (h e).run) : Keeps P (tryCatch x h).run := by
  rw [ExceptT.run_tryCatch]
  refine hx.bind fun r => ?_
  cases r with
  | ok a => exact keeps_pure _
  | error e => exact hh e

theorem Keeps.discard {α : Type} {x : ExceptT Error (StateM Replay) α} (hx : Keeps P x.run) :
    Keeps P (discard x).run := by
  rw [Client.discard_eq]
  exact hx.except_bind fun _ => keeps_pure _

/-- `send` hands the session copies of one request, chroot applied. -/
theorem keeps_send {cfg : ClientConfig} {req : Request} {path : Option String}
    (h : P (req.setChroot cfg.chroot)) : Keeps P ((client cfg).send req path).run := by
  intro s hs q hq
  obtain ⟨m, -, -, -, hrun⟩ := send_run cfg req path s
  rw [hrun] at hq
  rcases List.mem_append.mp hq with hq | hq
  · exact hs q hq
  · rw [List.eq_of_mem_replicate hq]
    exact h

end Replay

namespace Client

open Replay

/-- A request that a call whose checks passed sends under the chroot of `cfg`. -/
def Issued (cfg : ClientConfig) (q : Request) : Prop :=
  ∃ call : Call, call.validate = .ok () ∧ q = call.request.setChroot cfg.chroot

/-- A call hands the session nothing if its checks fail, and copies of its request otherwise. -/
theorem Call.keeps_issued (cfg : ClientConfig) (call : Call) :
    Keeps (Issued cfg) (call.run (client cfg)).run := by
  obtain ⟨k, hk, -, heq⟩ := call.run_eq
  rw [heq cfg]
  cases hv : call.validate with
  | error e =>
    rw [lift_error_bind]
    exact keeps_of_blind (blind_lift _)
  | ok u =>
    rw [lift_ok, pure_bind]
    exact (keeps_send ⟨call, hv, rfl⟩).except_bind fun r => keeps_of_blind (hk r)

variable (cfg : ClientConfig)

/-- A walk lists one node at a time with `getChildren`, at the path it built. -/
theorem keeps_walk (fuel : Nat) (pending tree : List String) :
    Keeps (Issued cfg) ((client cfg).walk fuel pending tree).run := by
  induction fuel generalizing pending tree with
  | zero => exact keeps_pure _
  | succ n ih =>
    cases pending with
    | nil => exact keeps_pure _
    | cons node rest =>
      exact (Call.keeps_issued cfg (.getChildren node none)).except_bind fun ⟨_, _⟩ => ih _ _

theorem keeps_removeEach (version : Int32) (nodes : List String) :
    Keeps (Issued cfg) ((client cfg).removeEach version nodes).run := by
  induction nodes with
  | nil => exact keeps_pure _
  | cons node rest ih =>
    -- a node already gone is passed over; any other failure stops the removal
    refine (Keeps.tryCatch (Call.keeps_issued cfg (.remove node version)) fun e =>
      keeps_of_blind ?_).except_bind fun _ => ih
    simp

theorem keeps_createEach (data : Option (List UInt8)) (acls : List Acl) (mode : CreateMode)
    (nodes : List String) :
    Keeps (Issued cfg) ((client cfg).createEach data acls mode nodes).run := by
  induction nodes with
  | nil => exact keeps_pure _
  | cons node rest ih =>
    -- a node that exists already is passed over; any other failure stops the creation
    refine (Keeps.tryCatch (Call.keeps_issued cfg (.create node data acls mode)).discard fun e =>
      keeps_of_blind ?_).except_bind fun _ => ih
    simp

theorem keeps_listSubTree (fuel : Nat) (path : String) :
    Keeps (Issued cfg) ((client cfg).listSubTree fuel path).run :=
  (keeps_of_blind (blind_lift _)).except_bind fun _ => keeps_walk cfg fuel _ _

theorem keeps_removeRecursive (fuel : Nat) (path : String) (version : Int32) :
    Keeps (Issued cfg) ((client cfg).removeRecursive fuel path version).run :=
  (keeps_of_blind (blind_lift _)).except_bind fun _ =>
    (keeps_listSubTree cfg fuel path).except_bind fun _ => keeps_removeEach cfg version _

theorem keeps_mkdirp (path : String) (data : Option (List UInt8)) (acls : List Acl)
    (mode : CreateMode) : Keeps (Issued cfg) ((client cfg).mkdirp path data acls mode).run :=
  (keeps_of_blind (blind_lift _)).except_bind fun _ =>
    (keeps_of_blind (blind_lift _)).except_bind fun _ =>
      (keeps_of_blind (blind_lift _)).except_bind fun _ =>
        (keeps_createEach cfg data acls mode _).except_bind fun _ => keeps_pure _

/-- A use of a client: a call that sends one request, a call over a subtree, or a call that
sends no request. -/
inductive Action where
  | call (c : Call)
  | listSubTree (fuel : Nat) (path : String)
  | removeRecursive (fuel : Nat) (path : String) (version : Int32)
  | mkdirp (path : String) (data : Option (List UInt8)) (acls : List Acl) (mode : CreateMode)
  | addAuth (scheme : String) (auth : List UInt8)
  | connect
  | close

/-- Makes an action through a client; its answer is dropped. -/
def Action.run {m : Type → Type} [Monad m] (c : Client m) : Action → ExceptT Error m Unit
  | .call k => discard (k.run c)
  | .listSubTree fuel p => discard (c.listSubTree fuel p)
  | .removeRecursive fuel p v => c.removeRecursive fuel p v
  | .mkdirp p d a md => discard (c.mkdirp p d a md)
  | .addAuth s a => c.addAuth s a
  | .connect => c.connect
  | .close => c.close

/-- Makes actions one after another; an action that fails does not stop the next. -/
def session {m : Type → Type} [Monad m] (c : Client m) (acts : List Action) : m Unit :=
  acts.forM fun a => discard (a.run c).run

theorem Action.keeps_issued (a : Action) : Keeps (Issued cfg) (a.run (client cfg)).run := by
  cases a with
  | call k => exact (k.keeps_issued cfg).discard
  | listSubTree fuel p => exact (keeps_listSubTree cfg fuel p).discard
  | removeRecursive fuel p v => exact keeps_removeRecursive cfg fuel p v
  | mkdirp p d a md => exact (keeps_mkdirp cfg p d a md).discard
  | addAuth s a =>
    -- the credentials go to the session, which sends no request for them
    have h : (liftM (Replay.link.addAuth s a) : ExceptT Error (StateM Replay) Unit) = pure () := rfl
    refine keeps_of_blind ?_
    by_cases hs : s.isEmpty <;> simp [Action.run, Client.addAuth, client, hs, h]
  | connect => exact keeps_of_blind ⟨.ok (), fun _ => rfl⟩
  | close => exact keeps_of_blind ⟨.ok (), fun _ => rfl⟩

/-- A call leaves the session as its own run leaves it, whether it succeeds or fails. -/
theorem run_discard_snd {α : Type} (x : ExceptT Error (StateM Replay) α) (s : Replay) :
    ((discard x).run.run s).2 = (x.run.run s).2 := by
  rw [discard_eq, ExceptT.run_bind, StateT.run_bind]
  rcases x.run.run s with ⟨_ | _, s'⟩ <;> rfl

/-- A session of one call is the call made alone. -/
theorem session_call (call : Call) (answers : Nat → Except Error Response) :
    (((client cfg).session [.call call]).run { answers }).2 = (call.replay cfg answers).2 := by
  show ((discard (discard (call.run (client cfg))).run >>= fun _ => pure ()).run { answers }).2 = _
  rw [StateT.run_bind]
  show (((discard (call.run (client cfg))).run.run { answers }).1,
    ((discard (call.run (client cfg))).run.run { answers }).2).2 = _
  rw [run_discard_snd]
  rfl

theorem keeps_session (acts : List Action) : Keeps (Issued cfg) ((client cfg).session acts) := by
  induction acts with
  | nil => exact keeps_pure _
  | cons a acts ih =>
    refine Keeps.bind ?_ fun _ => ih
    -- the action's outcome is dropped, success or failure
    intro s hs
    exact (a.keeps_issued cfg) s hs

/-- **Every request a client hands to its session is sound.** Take a configuration built from
any settings: its chroot is none or a path other than the root. Whatever actions are made through
a client of it, with whatever arguments, and whatever the session answers, the lists of children
included, every request the session is handed is the request of a call whose checks passed, and
it is sound under the configured chroot: its body fits its operation; each of its records names
a path that passes the path check, holds at most `dataLimit` bytes of data and carries a
nonempty ACL list where it carries one; it carries the chroot; its frame is read back, when
every length its body carries as sent is below `2 ^ 31`, as the request with its body as the
server sees it; and every path the server sees is a checked path under the chroot. A call whose checks fail fails with an
invalid argument and hands the session nothing. -/
theorem session_requests_sound (s : ConfigSettings) (cfg : ClientConfig)
    (hcfg : s.build = .ok cfg) :
    (cfg.chroot = none ∨ ∃ c, cfg.chroot = some c ∧ Path.validate c = .ok () ∧ c ≠ "/") ∧
    (∀ (acts : List Action) (answers : Nat → Except Error Response),
      ∀ q ∈ (((client cfg).session acts).run { answers }).2.sent,
        Issued cfg q ∧ q.Sound cfg.chroot) ∧
    (∀ (call : Call) (e : Error) (answers : Nat → Except Error Response),
      call.validate = .error e →
        (∃ a, e = .invalidArgument a) ∧ call.replay cfg answers = (.error e, { answers })) := by
  have hc := ConfigSettings.chroot_of_build hcfg
  refine ⟨hc, fun acts answers q hq => ?_, fun call e answers hv =>
    ⟨Call.validate_error hv, Call.replay_of_invalid hv cfg answers⟩⟩
  -- the session starts with nothing sent
  obtain ⟨call, hv, rfl⟩ := keeps_session cfg acts { answers } (fun _ h => nomatch h) q hq
  exact ⟨⟨call, hv, rfl⟩, Call.sound_request hv hc⟩

/-- A client under the chroot `/app`. -/
theorem session_requests_sound_app :
    ConfigSettings.build { connectString := some "zk:2181/app" } =
        .ok { connectString := ⟨[⟨"zk", 2181⟩], some "/app"⟩ } ∧
      (some "/app" = none ∨ ∃ c, some "/app" = some c ∧ Path.validate c = .ok () ∧ c ≠ "/") ∧
      (∀ (acts : List Action) (answers : Nat → Except Error Response),
        ∀ q ∈ (((client { connectString := ⟨[⟨"zk", 2181⟩], some "/app"⟩ }).session acts).run
            { answers }).2.sent,
          Issued { connectString := ⟨[⟨"zk", 2181⟩], some "/app"⟩ } q ∧ q.Sound (some "/app")) ∧
      (∀ (call : Call) (e : Error) (answers : Nat → Except Error Response),
        call.validate = .error e →
          (∃ a, e = .invalidArgument a) ∧
            call.replay { connectString := ⟨[⟨"zk", 2181⟩], some "/app"⟩ } answers =
              (.error e, { answers })) :=
  ⟨rfl, session_requests_sound { connectString := some "zk:2181/app" }
    { connectString := ⟨[⟨"zk", 2181⟩], some "/app"⟩ } rfl⟩

/-- A path of `2 ^ 31` bytes passes the path check and goes out with the length prefix
`-2 ^ 31`, which reading refuses: whatever the session answers, a client asked to read it hands
the session a request whose frame does not read back. -/
theorem session_sends_wrapped_path :
    ConfigSettings.build { connectString := some "zk:2181" } =
        .ok { connectString := ⟨[⟨"zk", 2181⟩], none⟩ } ∧
      ∀ answers : Nat → Except Error Response,
        ∃ q ∈ (((client { connectString := ⟨[⟨"zk", 2181⟩], none⟩ }).session
            [.call (.getData (String.ofList ('/' :: List.replicate (Nat.pow 2 31 - 1) 'a')) none)]).run
              { answers }).2.sent,
          ∃ bytes, q.toBytes = .ok (BigEndian.digits 4 bytes.length ++ bytes) ∧
            Request.decode bytes = .error (.serialization (.badLength (-2147483648))) := by
  refine ⟨rfl, fun answers => ?_⟩
  let p := String.ofList ('/' :: List.replicate (Nat.pow 2 31 - 1) 'a')
  have hp : p.utf8ByteSize = Nat.pow 2 31 :=
    (Utf8.utf8ByteSize_slash_replicate (by decide) _).trans (Nat.sub_add_cancel (by decide))
  -- a slash before a run of letters is a path, so the read is sent
  have hx : Path.NodeName (List.replicate (Nat.pow 2 31 - 1) 'a') :=
    Path.nodeName_replicate (by decide) (by decide) (by decide)
  have hc : ∀ c ∈ List.replicate (Nat.pow 2 31 - 1) 'a', ¬ Path.ForbiddenChar c := by
    intro c hc
    rw [List.eq_of_mem_replicate hc]
    decide
  have hv : (Call.getData p none).validate = .ok () := by
    show Path.validate p = .ok ()
    exact Path.validate_eq_ok_of_check (Path.check_slash_name hx hc)
  obtain ⟨_, -, hreplay⟩ := Call.replay_eq hv
  obtain ⟨m, -, -, -, hrun⟩ := hreplay { connectString := ⟨[⟨"zk", 2181⟩], none⟩ } answers
  refine ⟨(Call.getData p none).request.setChroot none, ?_, Call.decode_getData_wrapped hp none⟩
  rw [session_call, hrun]
  exact List.mem_replicate.mpr ⟨Nat.succ_ne_zero m, rfl⟩

end Client

end Ensemble
