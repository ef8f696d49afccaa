import Ensemble.Proofs.Retries

/-! # The retry loop and its waits

The wait after attempt `a`, counted from zero, is `b · 2 ^ a` capped at `c`, with the factor
`2 ^ a` taken as a 32-bit word: from attempt 32 on it stays at `2 ^ 32 - 1`. So:

* `growth_eq_min`: the factor is `min (2 ^ a) (2 ^ 32 - 1)`;
* `backoff_eq_iff`: the wait is the unbounded `min (b · 2 ^ a) c` exactly when the attempt is
  below 32, the first wait is zero, or the cap hides the difference (`backoff_thirty_two` is a
  case where it does not);
* `backoff_doubles_capped`: besides, the wait never exceeds the cap and never shrinks from one
  attempt to the next.

`RetryPolicy.record` runs the loop against fixed outcomes of the attempts and any readings of
the session timeout, and writes down every attempt, reading and wait (`RetryPolicy.Step`). One
round of the loop is an attempt that lost its connection, a reading and a wait
(`runFrom_succ_logged`); by induction on the retries left the loop is a run of such rounds and a
last attempt (`runFrom_logged`). Hence `record_attempts_waits`: attempts `0, 1, …, m` in order,
with `m` the number of lost attempts before the first other outcome, capped at the retry limit;
outcome `m` returned as it is; one reading and one wait between two attempts, the wait after
attempt `i` being `backoff b i t` for the timeout `t` read just before it; nothing after the last
attempt. No index exceeds the retry limit, so a limit that is a 32-bit word keeps every index,
and the counter that the next index comes from, inside one.
-/

namespace Ensemble

namespace RetryPolicy

/-! ### The factor and the wait -/

/-- The factor is `2 ^ n` capped at `2 ^ 32 - 1`: the two agree up to attempt 31, and from 32 on
the power is the larger. -/
theorem growth_eq_min (n : Nat) : growth n = min (Nat.pow 2 n) 4294967295 := by
  rw [growth]
  split
  · rename_i h
    have hle : Nat.pow 2 n ≤ Nat.pow 2 31 := Nat.pow_le_pow_right (by omega) (by omega)
    have h31 : Nat.pow 2 31 = 2147483648 := rfl
    omega
  · rename_i h
    have hge : Nat.pow 2 32 ≤ Nat.pow 2 n := Nat.pow_le_pow_right (by omega) (by omega)
    have h32 : Nat.pow 2 32 = 4294967296 := rfl
    omega

theorem growth_mono {n n' : Nat} (h : n ≤ n') : growth n ≤ growth n' := by
  have hp : Nat.pow 2 n ≤ Nat.pow 2 n' := Nat.pow_le_pow_right (by omega) h
  rw [growth_eq_min, growth_eq_min]
  omega

/-- The wait is the unbounded `min (b · 2 ^ a) c` exactly when the factor is still a power of two,
the first wait is zero, or the cap lies at or below what the held factor gives. -/
theorem backoff_eq_iff (b a c : Nat) :
    backoff b a c = min (b * Nat.pow 2 a) c ↔ a < 32 ∨ b = 0 ∨ c ≤ b * 4294967295 := by
  rw [backoff, growth]
  by_cases ha : a < 32
  · simp [ha]
  · -- from attempt 32 on, `b · 2 ^ a` is at least `b` above `b · (2 ^ 32 - 1)`
    have hp : 4294967296 ≤ Nat.pow 2 a :=
      Nat.pow_le_pow_right (n := 2) (by omega) (by omega : 32 ≤ a)
    have hm : b * 4294967296 ≤ b * Nat.pow 2 a := Nat.mul_le_mul_left b hp
    have hz : b = 0 → b * Nat.pow 2 a = 0 := fun h => by rw [h, Nat.zero_mul]
    simp only [ha, if_false, false_or]
    generalize b * Nat.pow 2 a = x at hm hz ⊢
    omega

theorem backoff_le_cap (b a c : Nat) : backoff b a c ≤ c :=
  Nat.min_le_right _ _

theorem backoff_mono (b c : Nat) {a a' : Nat} (h : a ≤ a') : backoff b a c ≤ backoff b a' c := by
  have hm : b * growth a ≤ b * growth a' := Nat.mul_le_mul_left b (growth_mono h)
  simp only [backoff]
  omega

/-- **The wait after an attempt.** It is `b` times the factor `2 ^ a` held at `2 ^ 32 - 1`, capped
at `c`; it equals the unbounded `min (b · 2 ^ a) c` exactly when the attempt is below 32, the first
wait is zero or the cap is at most `b · (2 ^ 32 - 1)`; it never exceeds the cap, and never shrinks
as the attempt grows. -/
theorem backoff_doubles_capped (b a c : Nat) :
    backoff b a c = min (b * min (Nat.pow 2 a) 4294967295) c ∧
      (backoff b a c = min (b * Nat.pow 2 a) c ↔ a < 32 ∨ b = 0 ∨ c ≤ b * 4294967295) ∧
      backoff b a c ≤ c ∧
      ∀ a', a ≤ a' → backoff b a c ≤ backoff b a' c := by
  refine ⟨?_, backoff_eq_iff b a c, backoff_le_cap b a c, fun a' h => backoff_mono b c h⟩
  rw [backoff, growth_eq_min]

/- A first wait of one second doubles to 16 s after attempt 4 and is capped at 30 s from attempt
5 on, also far beyond attempt 32. -/
example : backoff 1000 4 30000 = 16000 ∧ backoff 1000 5 30000 = 30000 ∧
    backoff 1000 40 30000 = 30000 := by
  decide

/-- After attempt 32 the factor is `2 ^ 32 - 1`, not `2 ^ 32`: with a first wait of 1 ms and a cap
of `2 ^ 33` ms the wait is `2 ^ 32 - 1` ms, one below the unbounded `min (1 · 2 ^ 32) (2 ^ 33)`. -/
theorem backoff_thirty_two :
    backoff 1 32 8589934592 = 4294967295 ∧
      backoff 1 32 8589934592 ≠ min (1 * Nat.pow 2 32) 8589934592 := by
  decide

/-! ### A run written down -/

/-- What the retry loop does, one step at a time. -/
inductive Step where
  /-- Attempt `n` of the operation, counted from zero. -/
  | attempt (n : Nat)
  /-- A reading of the session timeout, with the value read. -/
  | readTimeout (ms : Nat)
  /-- A wait of `ms` milliseconds. -/
  | sleep (ms : Nat)
  deriving DecidableEq, Repr

namespace Step

/-- Whether a step reads the session timeout. -/
def isRead : Step → Bool
  | .readTimeout _ => true
  | _ => false

/-- Reads the session timeout and writes the reading down: the `k`-th reading, counted from
zero, gives `timeouts k`. -/
def logRead (timeouts : Nat → Nat) : StateM (List Step) Nat :=
  modifyGet fun log =>
    let t := timeouts (log.countP isRead)
    (t, log ++ [.readTimeout t])

/-- Waits and writes the wait down. -/
def logSleep (ms : Nat) : StateM (List Step) Unit :=
  modify (· ++ [.sleep ms])

/-- Makes attempt `n`, whose outcome is `outcome n`, and writes it down. -/
def logAttempt {α : Type} (outcome : Nat → Except Error α) (n : Nat) :
    StateM (List Step) (Except Error α) :=
  modifyGet fun log => (outcome n, log ++ [.attempt n])

end Step

/-- A run of the loop that writes down what it does, against fixed outcomes of the attempts and
readings of the session timeout. A session timeout that changes between readings in any way gives
such a sequence of readings. -/
def record {α : Type} (p : RetryPolicy) (timeouts : Nat → Nat) (outcome : Nat → Except Error α) :
    Except Error α × List Step :=
  (p.run (Step.logRead timeouts) Step.logSleep (Step.logAttempt outcome)).run []

/-- The steps of the round after attempt `n` lost its connection, with the timeout `t` read
before the wait. -/
def round (p : RetryPolicy) (n t : Nat) : List Step :=
  [.attempt n, .readTimeout t, .sleep (backoff p.initialBackoff n t)]

section Record

variable {α : Type} (p : RetryPolicy) (timeouts : Nat → Nat) (outcome : Nat → Except Error α)

open Client

/-- One round of the loop: after a lost attempt it reads the timeout, waits and goes on; any other
outcome ends the loop with that outcome. -/
theorem runFrom_succ_logged (k n : Nat) (log : List Step) :
    (p.runFrom (Step.logRead timeouts) Step.logSleep (Step.logAttempt outcome) (k + 1) n).run log =
      if retried (outcome n) then
        (p.runFrom (Step.logRead timeouts) Step.logSleep (Step.logAttempt outcome) k (n + 1)).run
          (log ++ p.round n (timeouts (log.countP Step.isRead)))
      else (outcome n, log ++ [.attempt n]) := by
  rw [runFrom]
  cases h : outcome n with
  | ok a =>
    simp [Step.logAttempt, h, retried]
    rfl
  | error e =>
    by_cases hl : e.isConnectionLoss = true
    · simp [Step.logAttempt, Step.logRead, Step.logSleep, Step.isRead, h, hl, retried, round]
    · simp [Step.logAttempt, h, hl, retried]
      rfl

/-- The loop from attempt `n` with `left` retries, after the steps `log`: one round per lost
attempt, up to `left` of them, then a last attempt whose outcome it returns. -/
theorem runFrom_logged (left n : Nat) (log : List Step) :
    ∃ m ≤ left, (∀ i < m, retried (outcome (n + i)) = true) ∧
      (m < left → retried (outcome (n + m)) = false) ∧
      (p.runFrom (Step.logRead timeouts) Step.logSleep (Step.logAttempt outcome) left n).run log =
        (outcome (n + m), log ++ (List.range m).flatMap (fun i =>
          p.round (n + i) (timeouts (log.countP Step.isRead + i))) ++ [.attempt (n + m)]) := by
  -- induction on the retries left, one round at a time (`runFrom_succ_logged`)
  induction left generalizing n log with
  | zero =>
    refine ⟨0, Nat.le_refl 0, fun i hi => absurd hi (Nat.not_lt_zero i),
      fun h => absurd h (Nat.lt_irrefl 0), ?_⟩
    simp [runFrom, Step.logAttempt]
    rfl
  | succ k ih =>
    rw [runFrom_succ_logged]
    by_cases hl : retried (outcome n) = true
    · -- a lost attempt: one round, then the loop from attempt `n + 1` after one more reading
      obtain ⟨m, hm, hlost, hstop, hrun⟩ :=
        ih (n + 1) (log ++ p.round n (timeouts (log.countP Step.isRead)))
      have hcount : (log ++ p.round n (timeouts (log.countP Step.isRead))).countP Step.isRead =
          log.countP Step.isRead + 1 := by
        simp [round, List.countP_cons, Step.isRead]
      have hidx : ∀ i, n + 1 + i = n + (i + 1) := fun i => by omega
      have hread : ∀ i, log.countP Step.isRead + 1 + i = log.countP Step.isRead + (i + 1) :=
        fun i => by omega
      rw [hcount] at hrun
      refine ⟨m + 1, by omega, fun i hi => ?_, fun h => ?_, ?_⟩
      · cases i with
        | zero => exact hl
        | succ i => rw [← hidx]; exact hlost i (by omega)
      · rw [← hidx]; exact hstop (by omega)
      · rw [if_pos hl, hrun, List.range_succ_eq_map, List.flatMap_cons, List.flatMap_map]
        simp only [Nat.add_zero, List.append_assoc, Nat.succ_eq_add_one, hidx, hread]
    · -- any other outcome ends the loop
      refine ⟨0, Nat.zero_le _, fun i hi => absurd hi (Nat.not_lt_zero i),
        fun _ => by simpa using hl, ?_⟩
      rw [if_neg hl]
      simp

end Record

/-- **The retry loop, step by step.** Against any outcomes of the attempts and any readings of the
session timeout: with `m` the number of attempts that lose their connection before the first
other outcome, capped at the retry limit, the loop makes attempts `0, 1, …, m` in this order and
returns outcome `m` unchanged. Between attempts `i` and `i + 1` it reads the session timeout once,
getting its `i`-th reading, and then waits once, for `backoff b i` capped by that reading; after
attempt `m` it neither reads nor waits. -/
theorem record_attempts_waits {α : Type} (p : RetryPolicy) (timeouts : Nat → Nat)
    (outcome : Nat → Except Error α) :
    ∃ m ≤ p.retries, (∀ i < m, Client.retried (outcome i) = true) ∧
      (m < p.retries → Client.retried (outcome m) = false) ∧
      p.record timeouts outcome =
        (outcome m, (List.range m).flatMap (fun i =>
            [.attempt i, .readTimeout (timeouts i),
              .sleep (backoff p.initialBackoff i (timeouts i))]) ++
          [.attempt m]) := by
  obtain ⟨m, hm, hlost, hstop, hrun⟩ := runFrom_logged p timeouts outcome p.retries 0 []
  simp only [Nat.zero_add, List.countP_nil, List.nil_append] at hlost hstop hrun
  exact ⟨m, hm, hlost, hstop, hrun⟩

/- Three retries, every attempt losing its connection and a session timeout of 1.5 s: the waits
are 1 s, then 1.5 s twice, and the last loss is returned. -/
example :
    (record { retries := 3 } (fun _ => 1500)
      (fun _ => (.error (.exception ⟨.connectionLoss, none⟩) : Except Error Unit))).2 =
      [.attempt 0, .readTimeout 1500, .sleep 1000, .attempt 1, .readTimeout 1500, .sleep 1500,
        .attempt 2, .readTimeout 1500, .sleep 1500, .attempt 3] := by
  decide

end RetryPolicy

end Ensemble
