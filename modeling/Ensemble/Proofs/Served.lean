import Ensemble.Proofs.Retries

/-! # Calls from any state of a session

The retry loop and the calls are stated elsewhere for a replayed session that has not been sent
anything yet. The calls over a subtree make one call after another, each from the state the last
left, and some statements need a session whose answers depend on the request. This module gives
both:

* `RetryPolicy.runFrom_state`: over any state monad in which the attempt appends to the state
  and the waits leave it alone, the loop makes attempts `0, 1, …, m` and returns outcome `m`,
  where `m` is the place the answers make the loop stop (`Retried`);
* `Call.run_from`: a call whose checks pass, made from any state of a replayed session, queues
  its request `m + 1` times and answers what the same call without retries answers to the `m`-th
  answer (`Call.answerTo`);
* `Served`: a session that answers each request by any function of the requests queued before
  it and of the request itself, and records in order the requests it is queued and the watchers
  it is handed. `Served.send_run`, `Served.execute_run` and one lemma per call
  (`Served.remove_run`, `Served.getData_run`, `Served.getChildren_run`, `Served.exists_run`)
  say what a call does to such a session, so that later modules never open a call again.
-/

namespace Ensemble

/-! ### Steps of a call over a state -/

section Runs

variable {σ α β : Type}

theorem run_bind_ok {x : ExceptT Error (StateM σ) α} {f : α → ExceptT Error (StateM σ) β}
    {s t : σ} {a : α} (h : x.run.run s = (.ok a, t)) : (x >>= f).run.run s = (f a).run.run t := by
  rw [ExceptT.run_bind, StateT.run_bind, h]
  rfl

theorem run_bind_error {x : ExceptT Error (StateM σ) α} {f : α → ExceptT Error (StateM σ) β}
    {s t : σ} {e : Error} (h : x.run.run s = (.error e, t)) :
    (x >>= f).run.run s = (.error e, t) := by
  rw [ExceptT.run_bind, StateT.run_bind, h]
  rfl

theorem run_tryCatch_ok {x : ExceptT Error (StateM σ) α} {h : Error → ExceptT Error (StateM σ) α}
    {s t : σ} {a : α} (hx : x.run.run s = (.ok a, t)) : (tryCatch x h).run.run s = (.ok a, t) := by
  rw [ExceptT.run_tryCatch, StateT.run_bind, hx]
  rfl

theorem run_tryCatch_error {x : ExceptT Error (StateM σ) α}
    {h : Error → ExceptT Error (StateM σ) α} {s t : σ} {e : Error}
    (hx : x.run.run s = (.error e, t)) : (tryCatch x h).run.run s = (h e).run.run t := by
  rw [ExceptT.run_tryCatch, StateT.run_bind, hx]
  rfl

theorem run_lift (x : Except Error α) (s : σ) :
    (Client.lift x : ExceptT Error (StateM σ) α).run.run s = (x, s) :=
  rfl

theorem lift_pure (a : α) : (Client.lift (pure a) : ExceptT Error (StateM σ) α) = pure a :=
  rfl

theorem run_map_lift (f : α → β) (x : Except Error α) (s : σ) :
    (f <$> (Client.lift x : ExceptT Error (StateM σ) α)).run.run s = (f <$> x, s) := by
  cases x <;> rfl

theorem run_lift_ok {x : Except Error α} {a : α} (h : x = .ok a) (s : σ) :
    (Client.lift x : ExceptT Error (StateM σ) α).run.run s = (.ok a, s) := by
  rw [run_lift, h]

theorem run_lift_error {x : Except Error α} {e : Error} (h : x = .error e) (s : σ) :
    (Client.lift x : ExceptT Error (StateM σ) α).run.run s = (.error e, s) := by
  rw [run_lift, h]

end Runs

/-! ### The retry loop over a state -/

/-- `m` is the answer at which a call with `k` retries stops, `lost i` telling whether the `i`-th
answer reports a lost connection: every answer before it did, and it is the last one allowed or
does not. -/
def Retried (k : Nat) (lost : Nat → Bool) (m : Nat) : Prop :=
  m ≤ k ∧ (∀ i < m, lost i = true) ∧ (m < k → lost m = false)

/-- The retry loop over a state, where attempt `i` counted from the start moves the state from
`after i` to `after (i + 1)` with outcome `out i`, and reading the timeout and waiting leave the
state alone: the loop stops at the place `Retried` gives and returns that outcome. -/
theorem RetryPolicy.runFrom_state {σ α : Type} (p : RetryPolicy) (timeout : StateM σ Nat)
    (sleep : Nat → StateM σ Unit) (htimeout : ∀ s, (timeout.run s).2 = s)
    (hsleep : ∀ d s, ((sleep d).run s).2 = s) (op : Nat → StateM σ (Except Error α))
    (out : Nat → Except Error α) (after : Nat → σ)
    (hop : ∀ n i, (op n).run (after i) = (out i, after (i + 1))) (left n j : Nat) :
    ∃ m, Retried left (fun i => Client.retried (out (j + i))) m ∧
      (p.runFrom timeout sleep op left n).run (after j) = (out (j + m), after (j + m + 1)) := by
  -- induction on the retries left, from any attempt on
  induction left generalizing n j with
  | zero =>
    refine ⟨0, ⟨Nat.le_refl 0, fun i hi => absurd hi (Nat.not_lt_zero i),
      fun h => absurd h (Nat.lt_irrefl 0)⟩, ?_⟩
    rw [RetryPolicy.runFrom, hop]
    rfl
  | succ k ih =>
    have hround : (p.runFrom timeout sleep op (k + 1) n).run (after j) =
        if Client.retried (out j) then (p.runFrom timeout sleep op k (n + 1)).run (after (j + 1))
        else (out j, after (j + 1)) := by
      rw [RetryPolicy.runFrom, StateT.run_bind, hop]
      cases out j with
      | ok a => rfl
      | error e =>
        show (if e.isConnectionLoss = true then _ else _ : StateM σ _).run _ = _
        by_cases hloss : e.isConnectionLoss = true
        · -- the reading of the timeout and the wait leave the state as it is
          simp only [Client.retried, hloss, if_true, StateT.run_bind]
          change (p.runFrom timeout sleep op k (n + 1)).run ((sleep (RetryPolicy.backoff
            p.initialBackoff n (timeout.run (after (j + 1))).1)).run
              (timeout.run (after (j + 1))).2).2 = _
          rw [hsleep, htimeout]
        · simp only [Client.retried, hloss]
          rfl
    by_cases hl : Client.retried (out j) = true
    · obtain ⟨m, ⟨hm, hlost, hstop⟩, hrun⟩ := ih (n + 1) (j + 1)
      refine ⟨m + 1, ⟨by omega, fun i hi => ?_, fun h => ?_⟩, ?_⟩
      · cases i with
        | zero => exact hl
        | succ i =>
          show Client.retried (out (j + (i + 1))) = true
          rw [show j + (i + 1) = j + 1 + i by omega]
          exact hlost i (by omega)
      · show Client.retried (out (j + (m + 1))) = false
        rw [show j + (m + 1) = j + 1 + m by omega]
        exact hstop (by omega)
      · rw [hround, if_pos hl, hrun]
        simp only [Nat.add_assoc, Nat.add_comm 1 m]
    · refine ⟨0, ⟨Nat.zero_le _, fun i hi => absurd hi (Nat.not_lt_zero i),
        fun _ => by simpa using hl⟩, ?_⟩
      rw [hround, if_neg hl]
      simp only [Nat.add_zero]

/-! ### A call from any state of a replayed session -/

namespace Client.Call

open Replay

/-- What a call answers when the last answer the session gives it is `o`: the same call made
with no retries against that one answer. -/
def answerTo (call : Call) (cfg : ClientConfig) (o : Except Error Response) :
    Except Error call.Result :=
  (call.replay { cfg with retry := { cfg.retry with retries := 0 } } fun _ => o).1

/-- A call whose checks pass, made from any state of a replayed session: with `m` the answer at
which the retries stop, the request is queued `m + 1` times under the configured chroot, and the
call answers what it answers to answer `m` alone. -/
theorem run_from {call : Call} (hv : call.validate = .ok ()) (cfg : ClientConfig) (s : Replay) :
    ∃ m, Retried cfg.retry.retries (fun i => lostConnection (s.answers (s.sent.length + i))) m ∧
      (call.run (client cfg)).run.run s = (call.answerTo cfg (s.answers (s.sent.length + m)),
        { s with sent := s.sent ++ List.replicate (m + 1) (call.request.setChroot cfg.chroot) }) := by
  obtain ⟨k, hk, -, heq⟩ := call.run_eq
  choose f hf using hk
  -- from any state, the call is `send` and then one step that leaves the session alone
  have hrun : ∀ (cfg : ClientConfig) (s : Replay), ∃ m,
      Retried cfg.retry.retries (fun i => lostConnection (s.answers (s.sent.length + i))) m ∧
      (call.run (client cfg)).run.run s = (attempt call.path? (s.answers (s.sent.length + m)) >>= f,
        { s with sent := s.sent ++ List.replicate (m + 1) (call.request.setChroot cfg.chroot) }) := by
    intro cfg s
    obtain ⟨m, hm, hlost, hstop, hsend⟩ := send_run cfg call.request call.path? s
    refine ⟨m, ⟨hm, hlost, hstop⟩, ?_⟩
    rw [heq, hv, lift_ok, pure_bind, run_bind_of_blind hf, hsend]
  obtain ⟨m, hm, hrun_s⟩ := hrun cfg s
  refine ⟨m, hm, ?_⟩
  -- with no retries the one answer is taken at once
  obtain ⟨m₀, ⟨hm₀, -, -⟩, hrun₀⟩ := hrun { cfg with retry := { cfg.retry with retries := 0 } }
    { answers := fun _ => s.answers (s.sent.length + m) }
  obtain rfl : m₀ = 0 := Nat.le_zero.mp hm₀
  rw [hrun_s, answerTo, replay, hrun₀]

end Client.Call

/-! ### A session that answers each request -/

/-- What a session is handed, in order: a request queued, or a watcher left on a path. -/
inductive Served.Event where
  | queued (req : Request)
  | watched (kind : WatcherKind) (path watcher : String)

/-- A session that answers each request by `respond`, from the requests queued before it and the
request itself, and records everything it is handed. It accepts every watcher, and its waits take
no time. Any connection that answers deterministically is such a session. -/
structure Served where
  respond : List Request → Request → Except Error Response
  log : List Served.Event := []

namespace Served

/-- The request of an event, if it queues one. -/
def Event.request? : Event → Option Request
  | .queued req => some req
  | .watched .. => none

/-- The requests queued, in order. -/
def sent (s : Served) : List Request :=
  s.log.filterMap Event.request?

/-- The session as a client sees it. -/
def link : Link (StateM Served) where
  queue req := modifyGet fun s => (s.respond s.sent req, { s with log := s.log ++ [.queued req] })
  register k path w :=
    modifyGet fun s => (.registered, { s with log := s.log ++ [.watched k path w] })
  sessionTimeout := pure 30000
  sleep _ := pure ()
  addAuth _ _ := pure ()
  connect _ := pure (.ok ())
  close := pure (.ok ())
  state := pure .disconnected
  sessionId := pure none
  sessionPassword := pure none

/-- A client of a served session. -/
def client (cfg : ClientConfig) : Client (StateM Served) :=
  ⟨cfg, link⟩

/-- The session after `n` more copies of `req` were queued. -/
def queue (s : Served) (n : Nat) (req : Request) : Served :=
  { s with log := s.log ++ List.replicate n (.queued req) }

/-- The session after a watcher, if any, was left on a path. -/
def watch (s : Served) (kind : WatcherKind) (path : String) : Option String → Served
  | some w => { s with log := s.log ++ [.watched kind path w] }
  | none => s

@[simp] theorem watch_none (s : Served) (k : WatcherKind) (path : String) :
    s.watch k path none = s :=
  rfl

/-- The answer to the copy of `req` queued after `i` others. -/
def answer (s : Served) (req : Request) (i : Nat) : Except Error Response :=
  s.respond (s.sent ++ List.replicate i req) req

@[simp] theorem sent_queue (s : Served) (n : Nat) (req : Request) :
    (s.queue n req).sent = s.sent ++ List.replicate n req := by
  simp only [sent, queue, List.filterMap_append]
  congr 1
  induction n with
  | zero => rfl
  | succ n ih => simp [List.replicate_succ, Event.request?, ih]

@[simp] theorem queue_zero (s : Served) (req : Request) : s.queue 0 req = s := by
  simp [queue]

@[simp] theorem respond_queue (s : Served) (n : Nat) (req : Request) :
    (s.queue n req).respond = s.respond :=
  rfl

theorem queue_add (s : Served) (m n : Nat) (req : Request) :
    (s.queue m req).queue n req = s.queue (m + n) req := by
  simp [queue, List.replicate_append_replicate]

theorem answer_queue (s : Served) (req : Request) (m i : Nat) :
    (s.queue m req).answer req i = s.answer req (m + i) := by
  simp [answer, List.replicate_append_replicate]

/-! ### Calls over a served session -/

open Client

variable (cfg : ClientConfig)

theorem sendOnce_run (req : Request) (path : Option String) (s : Served) (i : Nat) :
    ((client cfg).sendOnce req path).run (s.queue i req) =
      (attempt path (s.answer req i), s.queue (i + 1) req) := by
  unfold Client.sendOnce
  have hq : (s.queue i req).log ++ [.queued req] = (s.queue (i + 1) req).log := by
    simp [queue, List.replicate_succ']
  cases h : s.answer req i with
  | ok r =>
    simp only [client, link, answer] at h ⊢
    simp [h, attempt, hq]
    rfl
  | error e =>
    simp only [client, link, answer] at h ⊢
    simp [h, attempt, hq]
    rfl

/-- `send` over a served session: with `m` the answer at which the retries stop, the request is
queued `m + 1` times under the configured chroot, and the outcome is what the last attempt made
of its answer. -/
theorem send_run (req : Request) (path : Option String) (s : Served) :
    ∃ m, Retried cfg.retry.retries
        (fun i => lostConnection (s.answer (req.setChroot cfg.chroot) i)) m ∧
      ((client cfg).send req path).run.run s =
        (attempt path (s.answer (req.setChroot cfg.chroot) m),
          s.queue (m + 1) (req.setChroot cfg.chroot)) := by
  obtain ⟨m, hm, hrun⟩ := cfg.retry.runFrom_state link.sessionTimeout link.sleep
    (fun _ => rfl) (fun _ _ => rfl) (fun _ => (client cfg).sendOnce (req.setChroot cfg.chroot) path)
    (fun i => attempt path (s.answer (req.setChroot cfg.chroot) i))
    (fun i => s.queue i (req.setChroot cfg.chroot))
    (fun _ i => sendOnce_run cfg _ path s i) cfg.retry.retries 0 0
  rw [queue_zero] at hrun
  simp only [Nat.zero_add, retried_attempt] at hm hrun
  exact ⟨m, hm, hrun⟩

/-- What `execute` makes of the last answer: an error for a lost connection, and for a failure
code of the reply, about `path`. -/
def executed (path : String) (o : Except Error Response) : Except Error Response := do
  let r ← attempt (some path) o
  r.check (some path)
  pure r

theorem execute_run (req : Request) (path : String) (s : Served) :
    ∃ m, Retried cfg.retry.retries
        (fun i => lostConnection (s.answer (req.setChroot cfg.chroot) i)) m ∧
      ((client cfg).execute req path).run.run s =
        (executed path (s.answer (req.setChroot cfg.chroot) m),
          s.queue (m + 1) (req.setChroot cfg.chroot)) := by
  obtain ⟨m, hm, hsend⟩ := send_run cfg req (some path) s
  refine ⟨m, hm, ?_⟩
  unfold Client.execute
  cases ha : attempt (some path) (s.answer (req.setChroot cfg.chroot) m) with
  | error e =>
    rw [run_bind_error (hsend.trans (by rw [ha]))]
    simp only [executed, ha]
    rfl
  | ok r =>
    rw [run_bind_ok (hsend.trans (by rw [ha]))]
    cases hc : r.check (some path) with
    | error e =>
      rw [run_bind_error (run_lift_error rfl _)]
      simp only [executed, ha, hc, bind, Except.bind]
    | ok u =>
      rw [run_bind_ok (run_lift_ok rfl _)]
      simp only [executed, ha, hc, bind, Except.bind]
      rfl

@[simp] theorem client_link : (client cfg).link = link := rfl

/-- Handing the session a watcher only records it. -/
theorem register_run (k : WatcherKind) (path w : String) (s : Served) :
    (discard (liftM (link.register k path w)) : ExceptT Error (StateM Served) Unit).run.run s =
      (.ok (), s.watch k path (some w)) :=
  rfl

/-- What `getData` makes of a reply that passed: the data and metadata of its record. -/
def dataReply (r : Response) : Except Error (Option (List UInt8) × Stat) := do
  let data ← (← r.record).getBuffer "data"
  pure (data, ← statOf r)

/-- What `getChildren` makes of a reply that passed: the names in its child list, in order, and
the metadata. -/
def childrenReply (r : Response) : Except Error (List String × Stat) := do
  let items ← (← r.record).getVector "children"
  let children ← (items.getD []).mapM childName
  pure (children, ← statOf r)

/-- Whether `exists?` found the node, from a reply: a success finds it, `NO_NODE` does not, and
any other failure code is an error about `path`. -/
def found (path : String) (r : Response) : Except Error Bool :=
  match r.check (some path) with
  | .ok () => .ok true
  | .error e => if e.code? = some .noNode then .ok false else .error e

theorem remove_run (path : String) (version : Int32) (hp : Path.validate path = .ok ())
    (s : Served) :
    ∃ m, Retried cfg.retry.retries (fun i => lostConnection
        (s.answer ((Call.remove path version).request.setChroot cfg.chroot) i)) m ∧
      ((client cfg).remove path version).run.run s =
        ((fun _ => ()) <$> executed path
            (s.answer ((Call.remove path version).request.setChroot cfg.chroot) m),
          s.queue (m + 1) ((Call.remove path version).request.setChroot cfg.chroot)) := by
  obtain ⟨m, hm, hexec⟩ := execute_run cfg (Call.remove path version).request path s
  refine ⟨m, hm, ?_⟩
  have hreq : Request.new .delete (.record (Op.delete path version).toRecord) =
      (Call.remove path version).request := rfl
  simp only [Client.remove, hreq]
  rw [run_bind_ok (run_lift_ok hp s), discard_eq]
  cases hx : executed path (s.answer ((Call.remove path version).request.setChroot cfg.chroot) m) with
  | error e =>
    rw [hx] at hexec
    rw [run_bind_error hexec]
    rfl
  | ok r =>
    rw [hx] at hexec
    rw [run_bind_ok hexec]
    rfl

theorem getChildren_run (path : String) (w : Option String) (hp : Path.validate path = .ok ())
    (s : Served) :
    ∃ m, Retried cfg.retry.retries (fun i => lostConnection
        (s.answer ((Call.getChildren path w).request.setChroot cfg.chroot) i)) m ∧
      ((client cfg).getChildren path w).run.run s =
        match executed path
            (s.answer ((Call.getChildren path w).request.setChroot cfg.chroot) m) with
        | .error e =>
          (.error e, s.queue (m + 1) ((Call.getChildren path w).request.setChroot cfg.chroot))
        | .ok r => (childrenReply r,
            (s.queue (m + 1) ((Call.getChildren path w).request.setChroot cfg.chroot)).watch
              .child path w) := by
  obtain ⟨m, hm, hexec⟩ := execute_run cfg (Call.getChildren path w).request path s
  refine ⟨m, hm, ?_⟩
  have hreq : request .getChildren2 Catalog.getChildren2Request
      [.ustring (some path), .boolean w.isSome] = (Call.getChildren path w).request := rfl
  simp only [Client.getChildren, hreq]
  rw [run_bind_ok (run_lift_ok hp s)]
  cases hx : executed path
      (s.answer ((Call.getChildren path w).request.setChroot cfg.chroot) m) with
  | error e =>
    rw [hx] at hexec
    rw [run_bind_error hexec]
  | ok r =>
    rw [hx] at hexec
    rw [run_bind_ok hexec]
    -- the watcher is handed over first, then the reply is read
    cases w with
    | none =>
      dsimp only
      rw [watch_none, show (childrenReply r, _) =
        (lift (childrenReply r) : ExceptT Error (StateM Served) _).run.run _ from rfl]
      simp only [childrenReply, lift_bind, lift_pure]
    | some id =>
      dsimp only
      rw [client_link, run_bind_ok (register_run _ _ _ _)]
      rw [show (childrenReply r, _) = (lift (childrenReply r) : ExceptT Error (StateM Served) _).run.run _
        from rfl]
      simp only [childrenReply, lift_bind, lift_pure]

theorem getData_run (path : String) (w : Option String) (hp : Path.validate path = .ok ())
    (s : Served) :
    ∃ m, Retried cfg.retry.retries (fun i => lostConnection
        (s.answer ((Call.getData path w).request.setChroot cfg.chroot) i)) m ∧
      ((client cfg).getData path w).run.run s =
        match executed path (s.answer ((Call.getData path w).request.setChroot cfg.chroot) m) with
        | .error e =>
          (.error e, s.queue (m + 1) ((Call.getData path w).request.setChroot cfg.chroot))
        | .ok r => (dataReply r,
            (s.queue (m + 1) ((Call.getData path w).request.setChroot cfg.chroot)).watch
              .data path w) := by
  obtain ⟨m, hm, hexec⟩ := execute_run cfg (Call.getData path w).request path s
  refine ⟨m, hm, ?_⟩
  have hreq : request .getData Catalog.getDataRequest
      [.ustring (some path), .boolean w.isSome] = (Call.getData path w).request := rfl
  simp only [Client.getData, hreq]
  rw [run_bind_ok (run_lift_ok hp s)]
  cases hx : executed path (s.answer ((Call.getData path w).request.setChroot cfg.chroot) m) with
  | error e =>
    rw [hx] at hexec
    rw [run_bind_error hexec]
  | ok r =>
    rw [hx] at hexec
    rw [run_bind_ok hexec]
    -- the watcher is handed over first, then the reply is read
    cases w with
    | none =>
      dsimp only
      rw [watch_none, show (dataReply r, _) =
        (lift (dataReply r) : ExceptT Error (StateM Served) _).run.run _ from rfl]
      simp only [dataReply, lift_bind, lift_pure]
    | some id =>
      dsimp only
      rw [client_link, run_bind_ok (register_run _ _ _ _)]
      rw [show (dataReply r, _) = (lift (dataReply r) : ExceptT Error (StateM Served) _).run.run _
        from rfl]
      simp only [dataReply, lift_bind, lift_pure]

theorem exists_run (path : String) (w : Option String) (hp : Path.validate path = .ok ())
    (s : Served) :
    ∃ m, Retried cfg.retry.retries (fun i => lostConnection
        (s.answer ((Call.exists path w).request.setChroot cfg.chroot) i)) m ∧
      ((client cfg).exists? path w).run.run s =
        match attempt (some path)
            (s.answer ((Call.exists path w).request.setChroot cfg.chroot) m) with
        | .error e => (.error e, s.queue (m + 1) ((Call.exists path w).request.setChroot cfg.chroot))
        | .ok r =>
          match found path r with
          | .error e =>
            (.error e, s.queue (m + 1) ((Call.exists path w).request.setChroot cfg.chroot))
          | .ok b => (if b then some <$> statOf r else .ok none,
              (s.queue (m + 1) ((Call.exists path w).request.setChroot cfg.chroot)).watch
                (if b then .data else .existence) path w) := by
  obtain ⟨m, hm, hsend⟩ := send_run cfg (Call.exists path w).request (some path) s
  refine ⟨m, hm, ?_⟩
  have hreq : request .exists Catalog.existsRequest
      [.ustring (some path), .boolean w.isSome] = (Call.exists path w).request := rfl
  simp only [Client.exists?, hreq]
  rw [run_bind_ok (run_lift_ok hp s)]
  cases ha : attempt (some path) (s.answer ((Call.exists path w).request.setChroot cfg.chroot) m) with
  | error e =>
    rw [ha] at hsend
    rw [run_bind_error hsend]
  | ok r =>
    rw [ha] at hsend
    rw [run_bind_ok hsend]
    dsimp only
    -- the reply's code decides whether the node was found, then the watcher's kind
    cases hc : r.check (some path) with
    | ok u =>
      have hf : found path r = .ok true := by simp [found, hc]
      simp only [hf, pure_bind, if_true]
      cases w with
      | none => exact run_map_lift _ _ _
      | some id =>
        rw [client_link, run_bind_ok (register_run _ _ _ _)]
        exact run_map_lift _ _ _
    | error e =>
      by_cases hn : e.code? = some .noNode
      · have hf : found path r = .ok false := by simp [found, hc, hn]
        simp only [hf, hn, if_true, pure_bind, Bool.false_eq_true, if_false]
        cases w with
        | none => rfl
        | some id =>
          rw [client_link, run_bind_ok (register_run _ _ _ _)]
          rfl
      · have hf : found path r = .error e := by simp [found, hc, hn]
        simp only [hf, hn, if_false]
        exact run_bind_error rfl

end Served

end Ensemble
