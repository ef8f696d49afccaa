import Ensemble.Proofs.Retries

/-! # Committing a transaction

A transaction is built by adding operations one at a time, each checked as it is added
(`Op.append`); the operations that pass come out in the order they were added
(`Op.foldlM_append`). Its commit sends them as one `multi` request and makes an answer of the reply
(`Client.commitAnswer`, `Client.commit_eq`):

* a reply whose body is a list of results answers with the results, unless some operation failed
  with a code other than `OK`: then the answer is `transactionFailed` with the first such code
  (`firstFailure_eq_some_iff`) and all the results (`commitAnswer_transaction`). The header's
  code is not looked at, and a result `failed OK`, an operation undone because another failed,
  is no failure;
* a reply without results fails with the header's exception, without a path, or, when the header
  reports success, as a reply of the wrong shape (`commitAnswer_of_not_transaction`).

Against a replayed session the commit is retried as any call is (`Call.replay_commit`), and a
reply whose header code is `-4` is a lost connection before its body is read: when it is the last
answer, the commit fails with `CONNECTION_LOSS` even if the reply carries results
(`commit_lost_reply_with_results`). `Call.commit_outcome` gathers what the commit sends and
answers.
-/

namespace Ensemble

/-! ### Building the list of operations -/

/-- The builder keeps the operations it accepts in the order they were added, after those it
held, and accepts a list only when each of its operations passes its check. -/
theorem Op.foldlM_append {calls acc ops : List Op} (h : calls.foldlM Op.append acc = .ok ops) :
    ops = acc ++ calls ∧ calls.forM Op.validate = .ok () := by
  induction calls generalizing acc with
  | nil =>
    cases h
    exact ⟨by simp, rfl⟩
  | cons op calls ih =>
    obtain ⟨acc', hop, hrest⟩ := Except.bind_eq_ok.mp h
    obtain ⟨⟨⟩, hv, hacc⟩ := Except.bind_eq_ok.mp hop
    cases hacc
    obtain ⟨rfl, hcalls⟩ := ih hrest
    refine ⟨by simp, ?_⟩
    show (op.validate >>= fun _ => calls.forM Op.validate) = .ok ()
    rw [hv, hcalls]
    rfl

/-! ### The first failure -/

theorem OpResult.failure?_eq_some_iff {x : OpResult} {code : ExceptionCode} :
    x.failure? = some code ↔ x = .failed code ∧ code ≠ .ok := by
  cases x with
  | failed c =>
    by_cases hc : c = .ok
    · subst hc
      simp only [OpResult.failure?, if_true, reduceCtorEq, OpResult.failed.injEq, false_iff,
        not_and, Decidable.not_not]
      exact Eq.symm
    · simp only [OpResult.failure?, hc, if_false, Option.some.injEq, OpResult.failed.injEq]
      constructor
      · rintro rfl
        exact ⟨rfl, hc⟩
      · rintro ⟨rfl, -⟩
        rfl
  | created _ | deleted | dataSet _ | checked => simp [OpResult.failure?]

theorem OpResult.failure?_eq_none_iff {x : OpResult} :
    x.failure? = none ↔ ∀ c, x = .failed c → c = .ok := by
  cases x with
  | failed c =>
    by_cases hc : c = .ok
    · subst hc
      simp only [OpResult.failure?, if_true, OpResult.failed.injEq, true_iff]
      intro c h
      exact h.symm
    · simp [OpResult.failure?, hc]
  | created _ | deleted | dataSet _ | checked => simp [OpResult.failure?]

/-- The first failure is the code of the first result that failed with a code other than `OK`;
every result before it succeeded or failed with `OK`. -/
theorem firstFailure_eq_some_iff {results : List OpResult} {code : ExceptionCode} :
    firstFailure results = some code ↔
      ∃ pre post, results = pre ++ .failed code :: post ∧ code ≠ .ok ∧
        ∀ c, .failed c ∈ pre → c = .ok := by
  rw [firstFailure, List.findSome?_eq_some_iff]
  constructor
  · rintro ⟨pre, x, post, rfl, hx, hpre⟩
    obtain ⟨rfl, hc⟩ := OpResult.failure?_eq_some_iff.mp hx
    exact ⟨pre, post, rfl, hc, fun c hc => OpResult.failure?_eq_none_iff.mp (hpre _ hc) c rfl⟩
  · rintro ⟨pre, post, rfl, hc, hpre⟩
    refine ⟨pre, .failed code, post, rfl, OpResult.failure?_eq_some_iff.mpr ⟨rfl, hc⟩,
      fun x hx => OpResult.failure?_eq_none_iff.mpr ?_⟩
    rintro c rfl
    exact hpre c hx

/-- No failure is found exactly when every result that failed did so with `OK`. -/
theorem firstFailure_eq_none_iff {results : List OpResult} :
    firstFailure results = none ↔ ∀ c, .failed c ∈ results → c = .ok := by
  rw [firstFailure, List.findSome?_eq_none_iff]
  constructor
  · intro h c hc
    exact OpResult.failure?_eq_none_iff.mp (h _ hc) c rfl
  · intro h x hx
    exact OpResult.failure?_eq_none_iff.mpr fun c hxc => h c (hxc ▸ hx)

/-! ### The answer of a commit -/

namespace Client

/-- What a commit makes of the reply it got: a reply whose body is not a list of results is
checked for a failure code and refused otherwise; a list of results is the answer, unless an
operation failed with a code other than `OK`. -/
def commitAnswer (r : Response) : Except Error (List OpResult) := do
  match r.payload with
  | .transaction _ => pure ()
  | _ => r.check none
  let results ← r.transaction
  match firstFailure results with
  | some code => throw (.transactionFailed ⟨code, none⟩ results)
  | none => pure results

theorem commitAnswer_transaction {r : Response} {results : List OpResult}
    (h : r.payload = .transaction results) :
    commitAnswer r = match firstFailure results with
      | some code => .error (.transactionFailed ⟨code, none⟩ results)
      | none => .ok results := by
  simp only [commitAnswer, Response.transaction, h]
  rfl

theorem commitAnswer_of_not_transaction {r : Response} (h : ∀ rs, r.payload ≠ .transaction rs) :
    commitAnswer r = .error (if r.err = 0 then .protocol (.expectedTransaction r.payload.debug)
      else Error.ofCode r.err none) := by
  unfold commitAnswer Response.transaction
  cases hp : r.payload with
  | transaction rs => exact absurd hp (h rs)
  | empty | record _ =>
    by_cases h0 : r.err = 0
    · simp [Response.check, h0]
      rfl
    · simp [Response.check, h0]
      rfl

variable {m : Type → Type} [Monad m] [LawfulMonad m]

/-- A commit checks its operations, sends them as one request about no path, and answers from the
reply alone. -/
theorem commit_eq (c : Client m) (ops : List Op) :
    c.commit ops = lift (ops.forM Op.validate) >>= fun _ =>
      c.send (Request.new .multi (.transaction ⟨ops, none⟩)) none >>= fun r =>
        lift (commitAnswer r) := by
  rw [commit, forM_lift]
  congr 1
  funext _
  congr 1
  funext r
  -- the body decides whether the header is checked; each branch is one `lift` of its result
  cases hp : r.payload with
  | transaction rs =>
    simp only [commitAnswer, Response.transaction, hp, lift_ok, pure_bind]
    show _ = lift (match firstFailure rs with
      | some code => throw (.transactionFailed ⟨code, none⟩ rs)
      | none => pure rs)
    cases firstFailure rs <;> rfl
  | empty | record _ =>
    simp only [commitAnswer, Response.transaction, hp, lift_bind, lift_error_bind]

end Client

namespace Client.Call

open Replay

/-- A commit against a replayed session, its operations all passing their checks: the request is
queued once per lost answer up to the retry limit and once more, and the answer is what the last
attempt made of its answer, taken on by `commitAnswer`. -/
theorem replay_commit (cfg : ClientConfig) {ops : List Op} (hv : ops.forM Op.validate = .ok ())
    (answers : Nat → Except Error Response) :
    ∃ m ≤ cfg.retry.retries,
      (∀ i < m, lostConnection (answers i) = true) ∧
      (m < cfg.retry.retries → lostConnection (answers m) = false) ∧
      (Call.commit ops).replay cfg answers = (attempt none (answers m) >>= commitAnswer,
        { answers, sent := List.replicate (m + 1) ((Call.commit ops).request.setChroot cfg.chroot) }) := by
  obtain ⟨m, hm, hlost, hstop, hsend⟩ :=
    send_run cfg (Call.commit ops).request none { answers }
  simp only [List.length_nil, Nat.zero_add, List.nil_append] at hlost hstop hsend
  refine ⟨m, hm, hlost, hstop, ?_⟩
  -- the answer is one `lift`, which leaves the session as it is
  have hk : ∀ r s, (lift (commitAnswer r) : ExceptT Error (StateM Replay) _).run.run s =
      (commitAnswer r, s) := fun _ _ => rfl
  rw [replay, run, commit_eq, hv, lift_ok, pure_bind, run_bind_of_blind hk]
  rw [show Request.new .multi (.transaction ⟨ops, none⟩) = (Call.commit ops).request from rfl, hsend]

/-- **Committing a transaction.** For operations that the builder accepted, in the order they were
added, and any answers of the session: the operations are those added, in that order; with `m`
the number of answers before the first that reports no lost connection, capped at the retry
limit, the one `multi` request holding them under the configured chroot is queued `m + 1` times.
From the last answer the commit returns: a queue error as it is; for a reply whose header code is
`-4`, `CONNECTION_LOSS` without a path; for a reply with results, the results exactly when none
failed with a code other than `OK`, and otherwise `transactionFailed` with the first such code and
all the results, whatever the header code; for a reply without results, the exception of the
header code without a path (a protocol error for a code that is not known), or a protocol error
about the reply's shape when the header reports success. -/
theorem commit_outcome (cfg : ClientConfig) (calls ops : List Op)
    (hbuilt : calls.foldlM Op.append [] = .ok ops) (answers : Nat → Except Error Response) :
    ops = calls ∧ ∃ m ≤ cfg.retry.retries,
      (∀ i < m, lostConnection (answers i) = true) ∧
      (m < cfg.retry.retries → lostConnection (answers m) = false) ∧
      ((Call.commit ops).replay cfg answers).2.sent = List.replicate (m + 1)
        ((Request.new .multi (.transaction ⟨calls, none⟩)).setChroot cfg.chroot) ∧
      (∀ e, answers m = .error e → ((Call.commit ops).replay cfg answers).1 = .error e) ∧
      (∀ r, answers m = .ok r → r.err = ExceptionCode.connectionLoss.value →
        ((Call.commit ops).replay cfg answers).1 = .error (.exception ⟨.connectionLoss, none⟩)) ∧
      (∀ r results, answers m = .ok r → r.err ≠ ExceptionCode.connectionLoss.value →
        r.payload = .transaction results →
        (((Call.commit ops).replay cfg answers).1 = .ok results ↔
          ∀ c, .failed c ∈ results → c = .ok) ∧
        ∀ pre code post, results = pre ++ .failed code :: post → code ≠ .ok →
          (∀ c, .failed c ∈ pre → c = .ok) →
          ((Call.commit ops).replay cfg answers).1 =
            .error (.transactionFailed ⟨code, none⟩ results)) ∧
      (∀ r, answers m = .ok r → r.err ≠ ExceptionCode.connectionLoss.value →
        (∀ results, r.payload ≠ .transaction results) →
        ((Call.commit ops).replay cfg answers).1 = .error (if r.err = 0 then
            .protocol (.expectedTransaction r.payload.debug)
          else match ExceptionCode.ofValue? r.err with
            | some code => .exception ⟨code, none⟩
            | none => .protocol (.unknownExceptionCode r.err))) := by
  obtain ⟨hops, hv⟩ := Op.foldlM_append hbuilt
  rw [List.nil_append] at hops
  subst hops
  obtain ⟨m, hm, hlost, hstop, hrun⟩ := replay_commit cfg hv answers
  -- a reply that reports no lost connection reaches `commitAnswer` as it is
  have hreply : ∀ r, answers m = .ok r → r.err ≠ ExceptionCode.connectionLoss.value →
      ((Call.commit ops).replay cfg answers).1 = commitAnswer r := by
    intro r hr hl
    rw [hrun, hr]
    simp only [attempt, hl, if_false]
    rfl
  refine ⟨rfl, m, hm, hlost, hstop, by rw [hrun]; rfl, fun e he => ?_, fun r hr hl => ?_,
    fun r results hr hl hp => ?_, fun r hr hl hp => ?_⟩
  · -- a queue error
    rw [hrun, he]
    rfl
  · -- a reply that reports a lost connection
    rw [hrun, hr]
    simp only [attempt, hl, if_true, ofCode_connectionLoss]
    rfl
  · -- a reply with results
    rw [hreply r hr hl, commitAnswer_transaction hp]
    constructor
    · cases hf : firstFailure results with
      | some code =>
        obtain ⟨pre, post, rfl, hc, -⟩ := firstFailure_eq_some_iff.mp hf
        simp only [reduceCtorEq, false_iff]
        exact fun h => hc (h code (by simp))
      | none => simpa using firstFailure_eq_none_iff.mp hf
    · intro pre code post hres hc hpre
      rw [firstFailure_eq_some_iff.mpr ⟨pre, post, hres, hc, hpre⟩]
  · -- a reply without results
    rw [hreply r hr hl, commitAnswer_of_not_transaction hp]
    rfl

/-- The builder accepts a check of `/a`, and the commit then follows `commit_outcome` against a
session that answers with an empty successful reply. -/
theorem commit_outcome_check :
    [Op.check "/a" (-1)].foldlM Op.append [] = .ok [.check "/a" (-1)] ∧
      [Op.check "/a" (-1)] = [.check "/a" (-1)] ∧ ∃ m ≤ ({} : ClientConfig).retry.retries,
      (∀ i < m, lostConnection (Except.ok ⟨1, Long.zero, 0, .empty⟩) = true) ∧
      (m < ({} : ClientConfig).retry.retries →
        lostConnection (Except.ok ⟨1, Long.zero, 0, .empty⟩) = false) ∧
      ((Call.commit [.check "/a" (-1)]).replay {} fun _ => .ok ⟨1, Long.zero, 0, .empty⟩).2.sent =
        List.replicate (m + 1) ((Request.new .multi (.transaction ⟨[.check "/a" (-1)], none⟩)).setChroot
          ({} : ClientConfig).chroot) ∧
      (∀ e, (Except.ok ⟨1, Long.zero, 0, .empty⟩ : Except Error Response) = .error e →
        ((Call.commit [.check "/a" (-1)]).replay {} fun _ => .ok ⟨1, Long.zero, 0, .empty⟩).1 =
          .error e) ∧
      (∀ r, (Except.ok ⟨1, Long.zero, 0, .empty⟩ : Except Error Response) = .ok r →
        r.err = ExceptionCode.connectionLoss.value →
        ((Call.commit [.check "/a" (-1)]).replay {} fun _ => .ok ⟨1, Long.zero, 0, .empty⟩).1 =
          .error (.exception ⟨.connectionLoss, none⟩)) ∧
      (∀ r results, (Except.ok ⟨1, Long.zero, 0, .empty⟩ : Except Error Response) = .ok r →
        r.err ≠ ExceptionCode.connectionLoss.value → r.payload = .transaction results →
        (((Call.commit [.check "/a" (-1)]).replay {} fun _ => .ok ⟨1, Long.zero, 0, .empty⟩).1 =
            .ok results ↔ ∀ c, .failed c ∈ results → c = .ok) ∧
        ∀ pre code post, results = pre ++ .failed code :: post → code ≠ .ok →
          (∀ c, .failed c ∈ pre → c = .ok) →
          ((Call.commit [.check "/a" (-1)]).replay {} fun _ => .ok ⟨1, Long.zero, 0, .empty⟩).1 =
            .error (.transactionFailed ⟨code, none⟩ results)) ∧
      (∀ r, (Except.ok ⟨1, Long.zero, 0, .empty⟩ : Except Error Response) = .ok r →
        r.err ≠ ExceptionCode.connectionLoss.value →
        (∀ results, r.payload ≠ .transaction results) →
        ((Call.commit [.check "/a" (-1)]).replay {} fun _ => .ok ⟨1, Long.zero, 0, .empty⟩).1 =
          .error (if r.err = 0 then .protocol (.expectedTransaction r.payload.debug)
            else match ExceptionCode.ofValue? r.err with
              | some code => .exception ⟨code, none⟩
              | none => .protocol (.unknownExceptionCode r.err))) :=
  ⟨rfl, commit_outcome {} [.check "/a" (-1)] [.check "/a" (-1)] rfl
    fun _ => .ok ⟨1, Long.zero, 0, .empty⟩⟩

/-- A last reply whose header code reports a lost connection fails the commit with
`CONNECTION_LOSS`, though it carries results of which none failed. -/
theorem commit_lost_reply_with_results :
    (∀ c, OpResult.failed c ∈ [OpResult.checked] → c = .ok) ∧
      ((Call.commit [.check "/a" (-1)]).replay {} fun _ =>
          .ok ⟨1, Long.zero, ExceptionCode.connectionLoss.value, .transaction [.checked]⟩).1 =
        .error (.exception ⟨.connectionLoss, none⟩) :=
  ⟨by simp, rfl⟩

end Client.Call

end Ensemble
