import Ensemble.Error

/-! # Retrying after a lost connection

A call that loses its connection is tried again, at most `retries` more times. Before the try
after attempt `n` (counted from zero) the client waits `initial · 2 ^ n` milliseconds, but never
longer than the session timeout read just before the wait. The factor `2 ^ n` is a 32-bit word,
so from attempt 32 on it stays at `2 ^ 32 - 1`. Any outcome other than a lost connection, and
the outcome of the last allowed attempt, is returned as it is.

`RetryPolicy.run` is the loop over any monad, with the attempt, the reading of the timeout and
the wait as parameters; `RetryPolicy.trace` runs it against fixed outcomes and records the
attempts and waits.
-/

namespace Ensemble

/-- How often and after which waits a call that lost its connection is tried again. -/
structure RetryPolicy where
  retries : Nat := 0
  initialBackoff : Nat := 1000
  deriving DecidableEq, Repr

namespace RetryPolicy

/-- The factor of the wait after attempt `n`: `2 ^ n`, held at `2 ^ 32 - 1` from 32 on. -/
def growth (n : Nat) : Nat :=
  if n < 32 then Nat.pow 2 n else 4294967295

/-- The wait in milliseconds after attempt `attempt`, at most `cap`. -/
def backoff (initial attempt cap : Nat) : Nat :=
  min (initial * growth attempt) cap

/-- Tries `op` on attempts `n`, `n + 1`, … while the connection is lost and `left` more tries
remain, waiting `backoff` between two tries. -/
def runFrom {m : Type → Type} [Monad m] {α : Type} (p : RetryPolicy) (timeout : m Nat)
    (sleep : Nat → m Unit) (op : Nat → m (Except Error α)) :
    (left n : Nat) → m (Except Error α)
  | 0, n => op n
  | k + 1, n => do
    let r ← op n
    match r with
    | .error e =>
      if e.isConnectionLoss then
        let t ← timeout
        sleep (backoff p.initialBackoff n t)
        runFrom p timeout sleep op k (n + 1)
      else pure r
    | .ok _ => pure r

/-- Runs `op` from attempt 0, retrying a lost connection as the policy allows. -/
def run {m : Type → Type} [Monad m] {α : Type} (p : RetryPolicy) (timeout : m Nat)
    (sleep : Nat → m Unit) (op : Nat → m (Except Error α)) : m (Except Error α) :=
  p.runFrom timeout sleep op p.retries 0

/-- A run against fixed outcomes and a fixed timeout: the attempts made, the waits between them,
and the outcome returned. -/
def trace {α : Type} (p : RetryPolicy) (timeout : Nat) (outcome : Nat → Except Error α) :
    List Nat × List Nat × Except Error α :=
  let attempt (n : Nat) : StateM (List Nat × List Nat) (Except Error α) := do
    modify fun (ns, ds) => (ns ++ [n], ds)
    pure (outcome n)
  let wait (d : Nat) : StateM (List Nat × List Nat) Unit :=
    modify fun (ns, ds) => (ns, ds ++ [d])
  let (r, ns, ds) := (p.run (pure timeout) wait attempt).run ([], [])
  (ns, ds, r)

end RetryPolicy

end Ensemble
