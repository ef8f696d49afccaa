import Ensemble.Proofs.Utf8
import Ensemble.Wire.Reader
import Ensemble.Wire.Writer

/-! # Writing and reading the primitives

A writer is run against a sink with a fixed room, and each primitive checks its room first. The
codec's writers never depend on the room otherwise, so each has one meaning once the room is
large enough: the bytes it appends, or the error it stops with. `Writer.Yields w r` says that
`w` has the meaning `r`; it composes along `>>=` (`Yields.bind`) and along a list
(`yields_forM`), and it fixes what `Writer.run` returns (`Yields.run_ok`, `Yields.run_error`).

On the reading side each primitive reads back, from the front of any byte list, what its writer
appended: an `int` its four bytes, a `long` its eight, a boolean its byte, and a buffer or a
string its length prefix and bytes as long as the length is below `2 ^ 31`, so that the prefix
is a non-negative `int`. A count written as an `int` is its four-byte big-endian form
(`BigEndian.ofInt32_ofNat`), and any four bytes are the form of the `int` they are read as
(`BigEndian.ofInt32_toInt32`). -/

namespace Ensemble

/-! ### Peeling a computation that succeeded -/

theorem Except.map_eq_ok {ε α β : Type} {f : α → β} {x : Except ε α} {b : β} :
    f <$> x = .ok b ↔ ∃ a, x = .ok a ∧ f a = b := by
  cases x <;> simp [Functor.map, Except.map]

theorem Except.bind_eq_ok {ε α β : Type} {x : Except ε α} {f : α → Except ε β} {b : β} :
    x >>= f = .ok b ↔ ∃ a, x = .ok a ∧ f a = .ok b := by
  cases x <;> simp [bind, Except.bind]

/-! ### Big-endian words -/

/-- The `k`-byte form of a number depends on it only modulo `256 ^ k`. -/
theorem BigEndian.digits_mod (k n : Nat) :
    BigEndian.digits k (n % Nat.pow 256 k) = BigEndian.digits k n := by
  induction k generalizing n with
  | zero => rfl
  | succ k ih =>
    have hp : Nat.pow 256 (k + 1) = 256 * Nat.pow 256 k := by
      rw [Nat.pow_eq, Nat.pow_eq, Nat.pow_succ, Nat.mul_comm]
    rw [BigEndian.digits, BigEndian.digits, hp, Nat.mod_mul_right_div_self, ih,
      Nat.mod_mul_right_mod]

/-- A count written as an `int` is its four-byte big-endian form, whatever its size. -/
theorem BigEndian.ofInt32_ofNat (n : Nat) :
    BigEndian.ofInt32 (Int32.ofNat n) = BigEndian.digits 4 n := by
  rw [BigEndian.ofInt32, ← BigEndian.digits_mod 4 n]
  congr 1

theorem BigEndian.digits_value_reverse (rs : List UInt8) :
    BigEndian.digits rs.length (BigEndian.value rs.reverse) = rs.reverse := by
  -- the last byte of the list is the first one `digits` peels off
  induction rs with
  | nil => rfl
  | cons x rs ih =>
    have hx := x.toNat_lt
    have hv : BigEndian.value (rs.reverse ++ [x]) =
        BigEndian.value rs.reverse * 256 + x.toNat := by
      rw [BigEndian.value_append]
      simp [BigEndian.value]
    rw [List.reverse_cons, hv, List.length_cons, BigEndian.digits,
      show (BigEndian.value rs.reverse * 256 + x.toNat) / 256 = BigEndian.value rs.reverse by
        omega,
      show (BigEndian.value rs.reverse * 256 + x.toNat) % 256 = x.toNat by omega, ih,
      UInt8.ofNat_toNat]

/-- A byte list is the big-endian form, in as many bytes, of the number it stands for. -/
theorem BigEndian.digits_value (bs : List UInt8) :
    BigEndian.digits bs.length (BigEndian.value bs) = bs := by
  have h := BigEndian.digits_value_reverse bs.reverse
  rwa [List.reverse_reverse, List.length_reverse] at h

theorem BigEndian.value_lt (bs : List UInt8) : BigEndian.value bs < Nat.pow 256 bs.length := by
  have h := BigEndian.value_digits bs.length (BigEndian.value bs)
  rw [BigEndian.digits_value] at h
  rw [h]
  exact Nat.mod_lt _ (Nat.pow_pos (by decide))

/-- Four bytes are the form of the `int` they stand for. -/
theorem BigEndian.ofInt32_toInt32 {bs : List UInt8} (h : bs.length = 4) :
    BigEndian.ofInt32 (BigEndian.toInt32 bs) = bs := by
  have hlt : BigEndian.value bs < 4294967296 := by
    have := BigEndian.value_lt bs
    rw [h] at this
    exact this
  rw [BigEndian.ofInt32, BigEndian.toInt32]
  simp only [UInt32.toUInt32_toInt32, UInt32.toNat_ofNat', Nat.mod_eq_of_lt hlt]
  rw [← h]
  exact BigEndian.digits_value bs

/-! ### Writers that never run short of room -/

namespace Writer

/-- What a writer does when its sink never runs short of room: the bytes it appends, or the
error it stops with once the room is large enough. -/
def Yields (w : Writer Unit) : Except Error (List UInt8) → Prop
  | .ok bs => ∀ out room, bs.length ≤ room →
      w ⟨out, room⟩ = .ok ((), ⟨out ++ bs.toArray, room - bs.length⟩)
  | .error e => ∃ need, ∀ out room, need ≤ room → w ⟨out, room⟩ = .error e

theorem yields_put (bs : List UInt8) : Yields (put bs) (.ok bs) := by
  intro out room h
  simp [put, h]

theorem yields_pure : Yields (pure ()) (.ok []) := by
  intro out room _
  show (Except.ok ((), ⟨out, room⟩) : Except Error (Unit × Sink))
    = Except.ok ((), ⟨out ++ #[], room - 0⟩)
  rw [Array.append_empty, Nat.sub_zero]

theorem bind_apply (x : Writer Unit) (f : Unit → Writer Unit) (s : Sink) :
    (x >>= f) s = (x s >>= fun p => f p.1 p.2) := rfl

theorem yields_throw (e : Error) : Yields (throw e) (.error e) :=
  ⟨0, fun _ _ _ => rfl⟩

theorem Yields.bind {w₁ w₂ : Writer Unit} {r₁ r₂ : Except Error (List UInt8)}
    (h₁ : Yields w₁ r₁) (h₂ : Yields w₂ r₂) :
    Yields (w₁ >>= fun _ => w₂) (r₁ >>= fun b₁ => (b₁ ++ ·) <$> r₂) := by
  cases r₁ with
  | error e =>
    obtain ⟨need, h⟩ := h₁
    exact ⟨need, fun out room hr => by rw [bind_apply, h out room hr]; rfl⟩
  | ok b₁ =>
    cases r₂ with
    | error e =>
      obtain ⟨need, h⟩ := h₂
      refine ⟨b₁.length + need, fun out room hr => ?_⟩
      rw [bind_apply, h₁ out room (by omega)]
      exact h _ (room - b₁.length) (by omega)
    | ok b₂ =>
      intro out room hr
      simp only [List.length_append] at hr
      rw [bind_apply, h₁ out room (by omega)]
      show w₂ _ = _
      rw [h₂ _ (room - b₁.length) (by omega)]
      simp [Array.append_assoc, Nat.sub_sub]

theorem Yields.run_ok {w : Writer Unit} {bs : List UInt8} (h : Yields w (.ok bs)) {room : Nat}
    (hr : bs.length ≤ room) : run w room = .ok bs := by
  simp [run, h #[] room hr]

theorem Yields.run_error {w : Writer Unit} {e : Error} (h : Yields w (.error e)) :
    ∃ need, ∀ room, need ≤ room → run w room = .error e := by
  obtain ⟨need, h⟩ := h
  exact ⟨need, fun room hr => by simp [run, h #[] room hr]⟩

/-- The bytes of a length-prefixed buffer: `-1` alone when absent, otherwise its length as an
`int` followed by its bytes. -/
def bufferBytes : Option (List UInt8) → List UInt8
  | none => BigEndian.ofInt32 (-1)
  | some bs => BigEndian.ofInt32 (Int32.ofNat bs.length) ++ bs

theorem yields_int (x : Int32) : Yields (int x) (.ok (BigEndian.ofInt32 x)) :=
  yields_put _

theorem yields_long (l : Long) : Yields (long l) (.ok l.bytes) :=
  yields_put _

theorem yields_bool (b : Bool) : Yields (bool b) (.ok [if b then 1 else 0]) :=
  yields_put _

theorem yields_buffer (b : Option (List UInt8)) : Yields (buffer b) (.ok (bufferBytes b)) := by
  cases b with
  | none => exact yields_int _
  | some bs => exact (yields_int _).bind (yields_put bs)

theorem yields_ustring (s : Option String) :
    Yields (ustring s) (.ok (bufferBytes (s.map Utf8.encode))) :=
  yields_buffer _

/-- Writing each element of a list in turn appends what each one yields. -/
theorem yields_forM {α : Type} (l : List α) (f : α → Writer Unit)
    (g : α → Except Error (List UInt8)) (h : ∀ a ∈ l, Yields (f a) (g a)) :
    Yields (l.forM f) (List.flatten <$> l.mapM g) := by
  induction l with
  | nil => exact yields_pure
  | cons a l ih =>
    have hl := (h a (by simp)).bind (ih fun b hb => h b (by simp [hb]))
    rw [List.mapM_cons]
    show Yields (do f a; l.forM f) _
    generalize g a = r₁ at hl ⊢
    generalize l.mapM g = r₂ at hl ⊢
    cases r₁ <;> cases r₂ <;> exact hl

end Writer

/-! ### Reading back what was written -/

namespace Reader

theorem bind_ok {α β : Type} {x : Reader α} {f : α → Reader β} {bs rest : List UInt8}
    {a : α} (h : x bs = .ok (a, rest)) : (x >>= f) bs = f a rest := by
  show (x bs >>= fun p => f p.1 p.2) = _
  rw [h]
  rfl

theorem map_ok {α β : Type} {x : Reader α} {f : α → β} {bs rest : List UInt8} {a : α}
    (h : x bs = .ok (a, rest)) : (f <$> x) bs = .ok (f a, rest) := by
  show (x bs >>= fun p => pure (f p.1, p.2)) = _
  rw [h]
  rfl

theorem bind_error {α β : Type} {x : Reader α} {f : α → Reader β} {bs : List UInt8} {e : Error}
    (h : x bs = .error e) : (x >>= f) bs = .error e := by
  change (x bs >>= fun p => f p.1 p.2) = _
  rw [h]
  rfl

theorem map_error {α β : Type} {x : Reader α} {f : α → β} {bs : List UInt8} {e : Error}
    (h : x bs = .error e) : (f <$> x) bs = .error e := by
  change (x bs >>= fun p => pure (f p.1, p.2)) = _
  rw [h]
  rfl

theorem bytes_append {bs : List UInt8} {n : Nat} (h : bs.length = n) (rest : List UInt8) :
    bytes n (bs ++ rest) = .ok (bs, rest) := by
  subst h
  simp [bytes]

theorem int_ofInt32 (x : Int32) (rest : List UInt8) :
    int (BigEndian.ofInt32 x ++ rest) = .ok (x, rest) := by
  rw [int, bind_ok (bytes_append (BigEndian.length_ofInt32 x) rest), BigEndian.toInt32_ofInt32]
  rfl

theorem long_bytes (l : Long) (rest : List UInt8) : long (l.bytes ++ rest) = .ok (l, rest) := by
  obtain ⟨bs, hbs⟩ := l
  match bs, hbs with
  | [_, _, _, _, _, _, _, _], _ => rfl

theorem bool_byte (b : Bool) (rest : List UInt8) :
    bool ([if b then 1 else 0] ++ rest) = .ok (b, rest) := by
  cases b <;> rfl

theorem length_absent (rest : List UInt8) :
    length (BigEndian.ofInt32 (-1) ++ rest) = .ok (none, rest) := by
  rw [length, bind_ok (int_ofInt32 _ rest)]
  rfl

theorem length_present {n : Nat} (hn : n < Nat.pow 2 31) (rest : List UInt8) :
    length (BigEndian.ofInt32 (Int32.ofNat n) ++ rest) = .ok (some n, rest) := by
  rw [Nat.pow_eq] at hn
  have hi : (Int32.ofNat n).toInt = n := Int32.toInt_ofNat_of_lt hn
  have hne : Int32.ofNat n ≠ -1 := by
    intro h
    have := congrArg Int32.toInt h
    rw [hi] at this
    simp at this
  have hpos : ¬ Int32.ofNat n < 0 := by
    rw [Int32.lt_iff_toInt_lt, hi]
    simp
  rw [length, bind_ok (int_ofInt32 _ rest)]
  simp only [hne, hpos, if_false]
  rw [show (Int32.ofNat n).toInt.toNat = n by rw [hi]; rfl]
  rfl

/-- A buffer whose length fits a non-negative `int` reads back from its bytes. -/
theorem buffer_bytes {b : Option (List UInt8)}
    (hb : ∀ bs, b = some bs → bs.length < Nat.pow 2 31)
    (rest : List UInt8) : buffer (Writer.bufferBytes b ++ rest) = .ok (b, rest) := by
  cases b with
  | none =>
    rw [Writer.bufferBytes, buffer, bind_ok (length_absent rest)]
    rfl
  | some bs =>
    rw [Writer.bufferBytes, List.append_assoc, buffer,
      bind_ok (length_present (hb bs rfl) (bs ++ rest))]
    exact map_ok (bytes_append rfl rest)

/-- A string whose UTF-8 form fits a non-negative `int` reads back from its bytes. -/
theorem ustring_bytes {s : Option String} (hs : ∀ t, s = some t → t.utf8ByteSize < Nat.pow 2 31)
    (rest : List UInt8) :
    ustring (Writer.bufferBytes (s.map Utf8.encode) ++ rest) = .ok (s, rest) := by
  have hb : ∀ bs, s.map Utf8.encode = some bs → bs.length < Nat.pow 2 31 := by
    intro bs h
    obtain ⟨t, ht, rfl⟩ := Option.map_eq_some_iff.mp h
    rw [Utf8.length_encode]
    exact hs t ht
  rw [ustring, bind_ok (buffer_bytes hb rest)]
  cases s with
  | none => rfl
  | some t =>
    simp only [Option.map_some, Utf8.decode_encode]
    rfl

/-! ### A length of `2 ^ 31` -/

/-- A buffer or string of `2 ^ 31` bytes goes out with a length prefix that reading refuses. -/
theorem length_wrapped (rest : List UInt8) :
    length (BigEndian.ofInt32 (Int32.ofNat (Nat.pow 2 31)) ++ rest)
      = .error (.serialization (.badLength (-2147483648))) := by
  -- the length wraps to the least word, which is negative and not the absent mark
  have hw : Int32.ofNat (Nat.pow 2 31) = -2147483648 := by decide
  have hne : (-2147483648 : Int32) ≠ -1 := by decide
  have hneg : (-2147483648 : Int32) < 0 := by decide
  rw [hw, length, bind_ok (int_ofInt32 _ rest)]
  simp only [hne, hneg, if_false, if_true]
  rfl

theorem buffer_wrapped {bs : List UInt8} (h : bs.length = Nat.pow 2 31) (rest : List UInt8) :
    buffer (Writer.bufferBytes (some bs) ++ rest)
      = .error (.serialization (.badLength (-2147483648))) := by
  rw [Writer.bufferBytes, h, List.append_assoc, buffer, bind_error (length_wrapped (bs ++ rest))]

theorem ustring_wrapped {s : String} (h : s.utf8ByteSize = Nat.pow 2 31) (rest : List UInt8) :
    ustring (Writer.bufferBytes (some (Utf8.encode s)) ++ rest)
      = .error (.serialization (.badLength (-2147483648))) := by
  rw [ustring, bind_error (buffer_wrapped (by rw [Utf8.length_encode, h]) rest)]

/-- A step of plain `Except` inside a reader takes no bytes. -/
theorem lift_ok {α : Type} (a : α) (bs : List UInt8) :
    (liftM (Except.ok a : Except Error α) : Reader α) bs = .ok (a, bs) := rfl

/-- Counting what a reader took: the bytes it consumed from the front. -/
theorem runCounting_append {α : Type} {r : Reader α} {bs rest : List UInt8} {a : α}
    (h : r (bs ++ rest) = .ok (a, rest)) : runCounting r (bs ++ rest) = .ok (a, bs.length) := by
  simp [runCounting, h]

end Reader

end Ensemble
