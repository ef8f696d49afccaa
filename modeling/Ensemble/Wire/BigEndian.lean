/-! # Big-endian words

Every integer on the wire is written most significant byte first. `digits k n` is the `k`-byte
big-endian form of `n` (taken modulo `256 ^ k`), and `value` reads a byte list back as a number.
A signed 32-bit word travels as its two's complement, so `ofInt32` and `toInt32` go through
`UInt32`; a signed 64-bit word likewise through `UInt64`.

Main facts:

- `length_digits`: the form of `n` in `k` bytes has `k` bytes;
- `value_digits`: reading the form back gives `n % 256 ^ k`;
- `toInt32_ofInt32`: a 32-bit word survives its four bytes.
-/

namespace Ensemble.BigEndian

/-- The `k`-byte big-endian form of `n`, modulo `256 ^ k`. -/
def digits : Nat → Nat → List UInt8
  | 0, _ => []
  | k + 1, n => digits k (n / 256) ++ [UInt8.ofNat (n % 256)]

/-- The number that a big-endian byte list stands for. -/
def value (bs : List UInt8) : Nat :=
  bs.foldl (fun acc b => acc * 256 + b.toNat) 0

/-- The four bytes of a signed 32-bit word, in two's complement. -/
def ofInt32 (x : Int32) : List UInt8 :=
  digits 4 x.toUInt32.toNat

/-- The signed 32-bit word of four bytes in two's complement. -/
def toInt32 (bs : List UInt8) : Int32 :=
  (UInt32.ofNat (value bs)).toInt32

/-- The eight bytes of a signed 64-bit word, in two's complement. -/
def ofInt64 (x : Int64) : List UInt8 :=
  digits 8 x.toUInt64.toNat

/-- The signed 64-bit word of eight bytes in two's complement. -/
def toInt64 (bs : List UInt8) : Int64 :=
  (UInt64.ofNat (value bs)).toInt64

@[simp] theorem length_digits (k n : Nat) : (digits k n).length = k := by
  induction k generalizing n with
  | zero => rfl
  | succ k ih => simp [digits, ih]

theorem foldl_value_acc (bs : List UInt8) (acc : Nat) :
    bs.foldl (fun acc b => acc * 256 + b.toNat) acc
      = acc * Nat.pow 256 bs.length + bs.foldl (fun acc b => acc * 256 + b.toNat) 0 := by
  rw [Nat.pow_eq]
  induction bs generalizing acc with
  | nil => simp
  | cons b bs ih =>
    simp only [List.foldl_cons, List.length_cons]
    rw [ih (acc * 256 + b.toNat), ih (0 * 256 + b.toNat), Nat.pow_succ']
    simp only [Nat.zero_mul, Nat.zero_add, Nat.add_mul, Nat.mul_assoc]
    omega

theorem value_append (xs ys : List UInt8) :
    value (xs ++ ys) = value xs * Nat.pow 256 ys.length + value ys := by
  unfold value
  rw [List.foldl_append, foldl_value_acc]

theorem value_digits (k n : Nat) : value (digits k n) = n % Nat.pow 256 k := by
  rw [Nat.pow_eq]
  induction k generalizing n with
  | zero => simp [digits, value, Nat.mod_one]
  | succ k ih =>
    have hb : (UInt8.ofNat (n % 256)).toNat = n % 256 := by
      simp
    simp only [digits]
    rw [value_append, ih, Nat.pow_eq, Nat.pow_succ', Nat.mod_mul]
    simp only [List.length_singleton, Nat.pow_one, value, List.foldl_cons, List.foldl_nil,
      Nat.zero_mul, Nat.zero_add, hb]
    rw [Nat.mul_comm]
    omega

@[simp] theorem length_ofInt32 (x : Int32) : (ofInt32 x).length = 4 := by
  simp [ofInt32]

@[simp] theorem length_ofInt64 (x : Int64) : (ofInt64 x).length = 8 := by
  simp [ofInt64]

theorem toInt32_ofInt32 (x : Int32) : toInt32 (ofInt32 x) = x := by
  have h : x.toUInt32.toNat < 256 ^ 4 := x.toUInt32.toNat_lt
  rw [toInt32, ofInt32, value_digits, Nat.pow_eq, Nat.mod_eq_of_lt h]
  simp

theorem toInt64_ofInt64 (x : Int64) : toInt64 (ofInt64 x) = x := by
  have h : x.toUInt64.toNat < 256 ^ 8 := x.toUInt64.toNat_lt
  rw [toInt64, ofInt64, value_digits, Nat.pow_eq, Nat.mod_eq_of_lt h]
  simp

end Ensemble.BigEndian
