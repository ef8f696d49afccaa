import Ensemble.Proofs.Calls
import Mathlib.Tactic.Choose

/-! # Retrying a call's request

A call sends its request through `send`, which tries again after a lost connection as the retry
policy allows. Against a replayed session (`Replay`) this is exact:

* one attempt queues the request and takes the next answer; a reply whose header code is `-4`
  becomes the exception `CONNECTION_LOSS` about the call's path (`Client.attempt`,
  `sendOnce_run`), so the attempt fails with a lost connection exactly when the answer reports
  one, by either channel (`Client.lostConnection`, `retried_attempt`);
* the loop stops at the first answer that reports no lost connection, or when no retry is left
  (`runFrom_run`): with `m` that many lost answers, capped at the retry limit, `send` queues its
  request, chroot applied, `m + 1` times and returns what the last attempt made of its answer
  (`send_run`).

A call is its checks, `send` and a last step that does not touch the session (`Call.run_eq`),
so its answer is a function of the last answer alone, the same as a call without retries that got
that answer at once (`Call.retried_until_answered`).
-/

namespace Ensemble

namespace Client

/-- What one attempt makes of the session's answer: a reply whose header reports a lost
connection is that error, about `path`; anything else is returned as it is. -/
def attempt (path : Option String) : Except Error Response → Except Error Response
  | .ok r =>
    if r.err = ExceptionCode.connectionLoss.value then .error (Error.ofCode r.err path) else .ok r
  | .error e => .error e

/-- An answer of the session that reports a lost connection: the exception `CONNECTION_LOSS`
about any path, or a reply whose header code is `-4`. A failed transaction is no lost
connection, whatever code it carries. -/
def lostConnection : Except Error Response → Bool
  | .ok r => r.err == ExceptionCode.connectionLoss.value
  | .error e => e.isConnectionLoss

/-- Whether the retry loop tries again after an outcome, retries left. -/
def retried {α : Type} : Except Error α → Bool
  | .error e => e.isConnectionLoss
  | .ok _ => false

theorem ofCode_connectionLoss (path : Option String) :
    Error.ofCode ExceptionCode.connectionLoss.value path = .exception ⟨.connectionLoss, path⟩ :=
  rfl

/-- An attempt is tried again exactly when the session's answer reports a lost connection. -/
theorem retried_attempt (path : Option String) (o : Except Error Response) :
    retried (attempt path o) = lostConnection o := by
  cases o with
  | error e => rfl
  | ok r =>
    by_cases h : r.err = ExceptionCode.connectionLoss.value
    · simp only [attempt, h, if_true, ofCode_connectionLoss, lostConnection, beq_self_eq_true]
      rfl
    · simp [attempt, h, retried, lostConnection]

end Client

namespace Replay

open Client

variable (cfg : ClientConfig) (req : Request) (path : Option String)

theorem sendOnce_run (s : Replay) :
    ((client cfg).sendOnce req path).run s =
      (attempt path (s.answers s.sent.length), { s with sent := s.sent ++ [req] }) := by
  unfold Client.sendOnce
  cases h : s.answers s.sent.length <;> simp [client, link, h, attempt] <;> rfl

/-- One round of the retry loop over a replayed session: the request is queued, and the loop
goes on from there after a lost answer and ends with what the attempt made of any other. -/
theorem runFrom_succ_run (p : RetryPolicy) (k n : Nat) (s : Replay) :
    (p.runFrom link.sessionTimeout link.sleep (fun _ => (client cfg).sendOnce req path)
        (k + 1) n).run s =
      if lostConnection (s.answers s.sent.length) then
        (p.runFrom link.sessionTimeout link.sleep (fun _ => (client cfg).sendOnce req path)
          k (n + 1)).run { s with sent := s.sent ++ [req] }
      else (attempt path (s.answers s.sent.length), { s with sent := s.sent ++ [req] }) := by
  rw [RetryPolicy.runFrom, StateT.run_bind, sendOnce_run,
    ← retried_attempt path (s.answers s.sent.length)]
  cases attempt path (s.answers s.sent.length) with
  | ok r => rfl
  | error e =>
    -- the wait reads the session's timeout and sleeps, neither of which touches the session
    show (if e.isConnectionLoss = true then _ else _ : StateM Replay _).run _ = _
    by_cases hloss : e.isConnectionLoss = true
    · simp only [retried, hloss, if_true]
      rfl
    · simp only [retried, hloss]
      rfl

/-- The retry loop over a replayed session, with `left` retries: it queues the request once per
lost answer, up to `left`, and once more, and returns what the last attempt made of its answer. -/
theorem runFrom_run (p : RetryPolicy) (left n : Nat) (s : Replay) :
    ∃ m ≤ left, (∀ i < m, lostConnection (s.answers (s.sent.length + i)) = true) ∧
      (m < left → lostConnection (s.answers (s.sent.length + m)) = false) ∧
      (p.runFrom link.sessionTimeout link.sleep (fun _ => (client cfg).sendOnce req path)
          left n).run s =
        (attempt path (s.answers (s.sent.length + m)),
          { s with sent := s.sent ++ List.replicate (m + 1) req }) := by
  -- induction on the retries left, one round of the loop at a time (`runFrom_succ_run`)
  induction left generalizing n s with
  | zero =>
    refine ⟨0, Nat.le_refl 0, fun i hi => absurd hi (Nat.not_lt_zero i),
      fun h => absurd h (Nat.lt_irrefl 0), ?_⟩
    rw [RetryPolicy.runFrom, sendOnce_run]
    rfl
  | succ k ih =>
    rw [runFrom_succ_run]
    by_cases hl : lostConnection (s.answers s.sent.length) = true
    · -- a lost answer: the loop goes on from the session with the request sent
      obtain ⟨m, hm, hlost, hstop, hrun⟩ := ih (n + 1) { s with sent := s.sent ++ [req] }
      have hlen : ({ s with sent := s.sent ++ [req] } : Replay).sent.length = s.sent.length + 1 := by
        simp
      have hidx : ∀ i, s.sent.length + 1 + i = s.sent.length + (i + 1) := fun i => by omega
      rw [hlen] at hlost hstop hrun
      refine ⟨m + 1, by omega, fun i hi => ?_, fun h => ?_, ?_⟩
      · cases i with
        | zero => exact hl
        | succ i => rw [← hidx]; exact hlost i (by omega)
      · rw [← hidx]; exact hstop (by omega)
      · rw [if_pos hl, hrun, hidx]
        simp only [List.append_assoc, List.singleton_append, List.replicate_succ]
    · -- an answer that reports no lost connection ends the loop
      refine ⟨0, Nat.zero_le _, fun i hi => absurd hi (Nat.not_lt_zero i),
        fun _ => by simpa using hl, ?_⟩
      rw [if_neg hl]
      rfl

/-- `send` over a replayed session: the request, chroot applied, is queued once per lost answer
up to the retry limit, and once more; the outcome is what the last attempt made of its answer. -/
theorem send_run (s : Replay) :
    ∃ m ≤ cfg.retry.retries, (∀ i < m, lostConnection (s.answers (s.sent.length + i)) = true) ∧
      (m < cfg.retry.retries → lostConnection (s.answers (s.sent.length + m)) = false) ∧
      ((client cfg).send req path).run.run s =
        (attempt path (s.answers (s.sent.length + m)),
          { s with sent := s.sent ++ List.replicate (m + 1) (req.setChroot cfg.chroot) }) :=
  runFrom_run cfg (req.setChroot cfg.chroot) path cfg.retry cfg.retry.retries 0 s

end Replay

namespace Client.Call

open Replay

/-- A call made from the start of a replayed session, its checks passed: the request is queued
once per lost answer up to the retry limit and once more, and the outcome is what the last
attempt made of its answer, taken on by the call's last step. -/
theorem replay_eq {call : Call} (hv : call.validate = .ok ()) :
    ∃ f : Response → Except Error call.Result,
      (call.executes = true → ∀ r, r.err ≠ 0 → f r = .error (Error.ofCode r.err call.path?)) ∧
      ∀ cfg answers, ∃ m ≤ cfg.retry.retries,
        (∀ i < m, lostConnection (answers i) = true) ∧
        (m < cfg.retry.retries → lostConnection (answers m) = false) ∧
        call.replay cfg answers = (attempt call.path? (answers m) >>= f,
          { answers, sent := List.replicate (m + 1) (call.request.setChroot cfg.chroot) }) := by
  obtain ⟨k, hk, hexec, heq⟩ := call.run_eq
  choose f hf using hk
  refine ⟨f, fun hx r h0 => ?_, fun cfg answers => ?_⟩
  · -- the last step of a call that executes fails at once on a failure code
    have h := hf r { answers := fun _ => .ok r }
    rw [hexec hx r h0] at h
    exact (Prod.mk.inj h).1.symm
  · obtain ⟨m, hm, hlost, hstop, hsend⟩ := send_run cfg call.request call.path? { answers }
    simp only [List.length_nil, Nat.zero_add] at hlost hstop hsend
    refine ⟨m, hm, hlost, hstop, ?_⟩
    rw [replay, heq, hv, lift_ok, pure_bind, run_bind_of_blind hf, hsend]
    rfl

/-- A call that fails its checks answers with that error and sends nothing. -/
theorem replay_of_invalid {call : Call} {e : Error} (hv : call.validate = .error e)
    (cfg : ClientConfig) (answers : Nat → Except Error Response) :
    call.replay cfg answers = (.error e, { answers }) := by
  obtain ⟨k, -, -, heq⟩ := call.run_eq
  rw [replay, heq, hv, lift_error_bind]
  rfl

/-- **A call is retried until answered, and its answer depends on the last outcome only.**
A call that fails its checks answers with that error and sends nothing. A call whose arguments
pass them, against any sequence of answers of the session: with `m` the number of answers before
the first that reports no lost connection, capped at the retry limit, the call's request is
queued `m + 1` times, each time the same request under the configured chroot. The call's result
is what the same call without retries makes of the last answer: a queue error as it is, a reply
with code `-4` the exception `CONNECTION_LOSS` about the call's path, and, for a call that
executes, any other failure code the exception of that code about the caller's path, or a
protocol error for a code that is not known. -/
theorem retried_until_answered (cfg : ClientConfig) (call : Call)
    (answers : Nat → Except Error Response) :
    match call.validate with
    | .error e => call.replay cfg answers = (.error e, { answers })
    | .ok () =>
      ∃ m ≤ cfg.retry.retries,
        (∀ i < m, lostConnection (answers i) = true) ∧
        (m < cfg.retry.retries → lostConnection (answers m) = false) ∧
        (call.replay cfg answers).2.sent =
          List.replicate (m + 1) (call.request.setChroot cfg.chroot) ∧
        (call.replay cfg answers).1 =
          (call.replay { cfg with retry := { cfg.retry with retries := 0 } } fun _ => answers m).1 ∧
        (∀ e, answers m = .error e → (call.replay cfg answers).1 = .error e) ∧
        (∀ r, answers m = .ok r → r.err = ExceptionCode.connectionLoss.value →
          (call.replay cfg answers).1 = .error (.exception ⟨.connectionLoss, call.path?⟩)) ∧
        (call.executes = true → ∀ r, answers m = .ok r → r.err ≠ 0 →
          r.err ≠ ExceptionCode.connectionLoss.value →
          (call.replay cfg answers).1 = .error (match ExceptionCode.ofValue? r.err with
            | some code => .exception ⟨code, call.path?⟩
            | none => .protocol (.unknownExceptionCode r.err))) := by
  cases hv : call.validate with
  | error e => exact replay_of_invalid hv cfg answers
  | ok u =>
    obtain ⟨f, hexec, hreplay⟩ := replay_eq hv
    obtain ⟨m, hm, hlost, hstop, hrun⟩ := hreplay cfg answers
    -- without retries the one answer is taken at once
    obtain ⟨m₀, hm₀, -, -, hrun₀⟩ :=
      hreplay { cfg with retry := { cfg.retry with retries := 0 } } fun _ => answers m
    obtain rfl : m₀ = 0 := Nat.le_zero.mp hm₀
    refine ⟨m, hm, hlost, hstop, by rw [hrun], by rw [hrun, hrun₀], fun e he => ?_,
      fun r hr hl => ?_, fun hx r hr h0 hl => ?_⟩
    · rw [hrun, he]
      rfl
    · rw [hrun, hr]
      simp only [attempt, hl, if_true, ofCode_connectionLoss]
      rfl
    · rw [hrun, hr]
      simp only [attempt, hl, if_false]
      exact hexec hx r h0

/- Two lost answers and then a reply, with three retries allowed: the request is sent three
times and the call succeeds. -/
example :
    let answers : Nat → Except Error Response := fun i =>
      if i < 2 then .error (.exception ⟨.connectionLoss, none⟩) else .ok ⟨0, Long.zero, 0, .empty⟩
    ((Call.sync "/a").replay { retry := { retries := 3 } } answers).1 = .ok () ∧
      ((Call.sync "/a").replay { retry := { retries := 3 } } answers).2.sent.length = 3 :=
  ⟨rfl, rfl⟩

end Client.Call

end Ensemble
