import Ensemble.Error

/-! # Reading primitives

A reader takes values from the front of a byte list and leaves the rest. Each primitive needs
a fixed number of bytes and fails with `insufficient data` when fewer are left: an `int` takes
four, a `long` eight, a `boolean` one (true only for the byte `1`). A length prefix is an `int`:
`-1` means absent, any other negative number is refused. A buffer is a length prefix and that
many bytes; a string is a buffer whose bytes must be UTF-8.
-/

namespace Ensemble

/-- A computation that reads from the front of a byte list and leaves the rest. -/
abbrev Reader := StateT (List UInt8) (Except Error)

namespace Reader

/-- The next `n` bytes. -/
def bytes (n : Nat) : Reader (List UInt8) := fun bs =>
  let front := bs.take n
  if front.length = n then .ok (front, bs.drop n)
  else .error (.serialization (.shortInput n bs.length))

/-- A signed 32-bit word. -/
def int : Reader Int32 := do
  let bs ← bytes 4
  pure (BigEndian.toInt32 bs)

/-- An eight-byte block. -/
def long : Reader Long := fun bs =>
  match bs with
  | b0 :: b1 :: b2 :: b3 :: b4 :: b5 :: b6 :: b7 :: rest =>
    .ok (⟨[b0, b1, b2, b3, b4, b5, b6, b7], rfl⟩, rest)
  | _ => .error (.serialization (.shortInput 8 bs.length))

/-- A boolean byte: true only for `1`. -/
def bool : Reader Bool := do
  let bs ← bytes 1
  pure (bs == [1])

/-- A length prefix: `none` for `-1`, refused when below `-1`. -/
def length : Reader (Option Nat) := do
  let n ← int
  if n = -1 then pure none
  else if n < 0 then throw (.serialization (.badLength n))
  else pure (some n.toInt.toNat)

/-- A length-prefixed buffer, `none` when absent. -/
def buffer : Reader (Option (List UInt8)) := do
  match ← length with
  | none => pure none
  | some n => some <$> bytes n

/-- A length-prefixed UTF-8 string, `none` when absent. -/
def ustring : Reader (Option String) := do
  match ← buffer with
  | none => pure none
  | some bs =>
    match Utf8.decode bs with
    | .ok s => pure (some s)
    | .error e => throw (.serialization (.badUtf8 e))

/-- The `n` values read one after another, in order; stops at the first failure. -/
def times {α : Type} (r : Reader α) (n : Nat) : Reader (List α) := fun bs =>
  go n [] bs
where
  /-- The remaining count, the values read so far in reverse, and the input left. -/
  go : Nat → List α → List UInt8 → Except Error (List α × List UInt8)
    | 0, acc, bs => .ok (acc.reverse, bs)
    | k + 1, acc, bs =>
      match r bs with
      | .ok (a, rest) => go k (a :: acc) rest
      | .error e => .error e

/-- Runs a reader on `bs` and reports the value with the number of bytes it took. -/
def runCounting {α : Type} (r : Reader α) (bs : List UInt8) : Except Error (α × Nat) :=
  match r bs with
  | .ok (a, rest) => .ok (a, bs.length - rest.length)
  | .error e => .error e

end Reader

end Ensemble
