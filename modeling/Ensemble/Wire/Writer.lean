import Ensemble.Error

/-! # Writing primitives

A writer appends bytes to a sink that has room for a fixed number of them. Each primitive
checks the room it needs first and fails with `buffer does not have enough space` when there
is too little, so a failure leaves the bytes written before it. An `int` takes four bytes, a
`long` its eight, a `boolean` one (`1` or `0`). A buffer is its length as an `int` followed by
its bytes, `-1` alone when absent; a string is the buffer of its UTF-8 bytes.
-/

namespace Ensemble

/-- The bytes written so far and the room left. -/
structure Sink where
  out : Array UInt8
  room : Nat

/-- A computation that appends bytes to a sink. -/
abbrev Writer := StateT Sink (Except Error)

namespace Writer

/-- Appends `bs` when there is room for all of it. -/
def put (bs : List UInt8) : Writer Unit := fun s =>
  let n := bs.length
  if n ≤ s.room then .ok ((), ⟨s.out ++ bs.toArray, s.room - n⟩)
  else .error (.serialization (.noRoom n s.room))

/-- A signed 32-bit word. -/
def int (x : Int32) : Writer Unit := put (BigEndian.ofInt32 x)

/-- An eight-byte block. -/
def long (l : Long) : Writer Unit := put l.bytes

/-- A boolean byte. -/
def bool (b : Bool) : Writer Unit := put [if b then 1 else 0]

/-- A length-prefixed buffer; `-1` when absent. The length is taken modulo `2 ^ 32`. -/
def buffer : Option (List UInt8) → Writer Unit
  | none => int (-1)
  | some bs => do
    int (Int32.ofNat bs.length)
    put bs

/-- A length-prefixed UTF-8 string; `-1` when absent. -/
def ustring (s : Option String) : Writer Unit :=
  buffer (s.map Utf8.encode)

/-- Runs a writer with room for `room` bytes and returns what it wrote. -/
def run (w : Writer Unit) (room : Nat) : Except Error (List UInt8) :=
  match w ⟨#[], room⟩ with
  | .ok ((), s) => .ok s.out.toList
  | .error e => .error e

end Writer

end Ensemble
