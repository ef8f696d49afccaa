import Ensemble.Proofs.FieldCodec

/-! # Lengths that fit a length prefix

Lengths on the wire are signed 32-bit words, so a value reads back only when every buffer,
string and vector that the wire carries for it is shorter than `2 ^ 31` (`Value.Bounded` of
`Value.sent`). This module derives that from the length of the whole encoding: a buffer or a
string is no longer than the bytes around it, and a vector has no more items than bytes as long
as each item takes at least one.

* `FieldType.leastLength`: the fewest bytes a value of a type takes; `leastLength_le` shows
  every admitted value takes at least that;
* `FieldType.solid`: every vector inside the type has elements of at least one byte;
* `bounded_of_encode`: an admitted value of a solid type whose encoding is shorter than `2 ^ 31`
  bytes is bounded as the wire carries it. -/

namespace Ensemble

mutual

/-- The fewest bytes a value of the type takes on the wire. -/
def FieldType.leastLength : FieldType → Nat
  | .int | .buffer | .ustring | .vector _ => 4
  | .long => 8
  | .boolean => 1
  | .record s => s.leastLength

/-- The fewest bytes a record of the class takes: the sum over its fields. -/
def Schema.leastLength : Schema → Nat
  | .mk _ _ fs => Field.leastLengths fs

/-- The fewest bytes of values of a list of fields. -/
def Field.leastLengths : List Field → Nat
  | [] => 0
  | .mk _ t :: fs => t.leastLength + Field.leastLengths fs

end

mutual

/-- Every vector inside the type has elements of at least one byte each. -/
def FieldType.solid : FieldType → Bool
  | .vector e => 0 < e.leastLength && e.solid
  | .record s => s.solid
  | _ => true

/-- Every field of the class has a solid type. -/
def Schema.solid : Schema → Bool
  | .mk _ _ fs => Field.allSolid fs

/-- Every field of the list has a solid type. -/
def Field.allSolid : List Field → Bool
  | [] => true
  | .mk _ t :: fs => t.solid && Field.allSolid fs

end


/-! ### The least length of a value -/

/-- A string's bytes take at least the four of its length prefix. -/
theorem FieldType.leastLength_le_encodeString {t : FieldType} {s : Option String}
    (ht : t.Admits (.ustring s)) (s' : Option String) {bs : List UInt8}
    (h : t.encodeString s' = .ok bs) : t.leastLength ≤ bs.length := by
  cases t <;> cases ht
  cases h
  cases s' <;> simp [FieldType.leastLength, Writer.bufferBytes]

mutual

/-- An admitted value takes at least the least length of its type. -/
theorem FieldType.leastLength_le (t : FieldType) :
    (v : Value) → t.Admits v → (bs : List UInt8) → t.encode v = .ok bs →
      t.leastLength ≤ bs.length
  | .vector (some items) => by
    intro ht bs h
    cases t
    case vector el =>
      obtain ⟨c, -, rfl⟩ := Except.map_eq_ok.mp h
      simp [FieldType.leastLength]
    all_goals cases ht
  | .record s vs c => by
    intro ht bs h
    cases t
    case record s' =>
      obtain ⟨rfl, hvs⟩ := ht
      obtain ⟨m, n, fs⟩ := s
      exact FieldType.leastLengths_le c fs vs hvs bs h
    all_goals cases ht
  | .int _ | .boolean _ | .vector none => by
    intro ht bs h
    cases t <;> cases ht
    cases h
    simp [FieldType.leastLength]
  | .long x => by
    intro ht bs h
    cases t <;> cases ht
    cases h
    simp [FieldType.leastLength, x.length_bytes]
  | .buffer b => by
    intro ht bs h
    cases t <;> cases ht
    cases h
    cases b <;> simp [FieldType.leastLength, Writer.bufferBytes]
  | .ustring s => fun ht _ h => FieldType.leastLength_le_encodeString ht s h
termination_by v => sizeOf v
decreasing_by all_goals (simp only [Value.record.sizeOf_spec]; omega)

/-- The items of a vector take at least the least length of the element type each. -/
theorem FieldType.itemsLength_le (el : FieldType) :
    (c : Option String) → (items : List Value) → el.AdmitsAll items → (bs : List UInt8) →
      el.encodeItems c items = .ok bs → items.length * el.leastLength ≤ bs.length
  | _, [] => by intro _ bs _; simp
  | c, v :: vs => by
    intro ha bs h
    obtain ⟨b, hv, d, hvs, rfl⟩ := encodeItems_cons_ok h
    have h₂ := FieldType.itemsLength_le el c vs ha.2 d hvs
    -- the first item, rewritten or not, takes at least the least length
    have h₁ : el.leastLength ≤ b.length := by
      cases c with
      | none => exact el.leastLength_le v ha.1 b hv
      | some root =>
        cases v with
        | ustring s =>
          cases s with
          | some p => exact FieldType.leastLength_le_encodeString ha.1 _ hv
          | none => exact el.leastLength_le _ ha.1 b hv
        | _ => exact el.leastLength_le _ ha.1 b hv
    simp only [List.length_cons, List.length_append, Nat.succ_mul]
    omega
termination_by _ items => sizeOf items
decreasing_by all_goals (simp only [List.cons.sizeOf_spec]; omega)

/-- A record's values take at least the least lengths of its fields. -/
theorem FieldType.leastLengths_le :
    (c : Option String) → (fs : List Field) → (vs : List Value) → FieldType.AdmitsEach fs vs →
      (bs : List UInt8) → FieldType.encodeFields c fs vs = .ok bs → Field.leastLengths fs ≤ bs.length
  | _, [], [] => by intro _ bs _; simp [Field.leastLengths]
  | c, .mk name t :: fs, v :: vs => by
    intro ha bs h
    obtain ⟨b, hv, d, hvs, rfl⟩ := encodeFields_cons_ok h
    have h₂ := FieldType.leastLengths_le c fs vs ha.2 d hvs
    -- the first field, as it goes out, takes at least the least length of its type
    have h₁ : t.leastLength ≤ b.length := by
      cases c with
      | none => exact t.leastLength_le v ha.1 b hv
      | some root =>
        cases v with
        | ustring s =>
          cases s with
          | some p => exact FieldType.leastLength_le_encodeString ha.1 _ hv
          | none => exact t.leastLength_le _ ha.1 b hv
        | vector items =>
          cases items with
          | some items =>
            have hty := ha.1
            cases t
            case vector el =>
              obtain ⟨e, -, rfl⟩ := Except.map_eq_ok.mp hv
              simp [FieldType.leastLength]
            all_goals cases hty
          | none => exact t.leastLength_le _ ha.1 b hv
        | _ => exact t.leastLength_le _ ha.1 b hv
    simp only [Field.leastLengths, List.length_append]
    omega
  | _, [], _ :: _ | _, _ :: _, [] => by intro ha; cases ha
termination_by _ _ vs => sizeOf vs
decreasing_by all_goals (simp only [List.cons.sizeOf_spec]; omega)

end


/-! ### Bounded values -/

/-- A string whose bytes number fewer than `2 ^ 31` is bounded. -/
theorem FieldType.bounded_of_encodeString {t : FieldType} {s : Option String}
    (ht : t.Admits (.ustring s)) (s' : Option String) {bs : List UInt8}
    (h : t.encodeString s' = .ok bs) (hlen : bs.length < Nat.pow 2 31) :
    (Value.ustring s').Bounded := by
  cases t <;> cases ht
  cases h
  cases s' with
  | none => trivial
  | some p =>
    simp only [Writer.bufferBytes, Option.map_some, List.length_append, Utf8.length_encode]
      at hlen
    exact Nat.lt_of_le_of_lt (Nat.le_add_left _ _) hlen

/-- The count of a vector of a solid element type is below `2 ^ 31` when its bytes are. -/
theorem FieldType.count_lt {el : FieldType} (hs : 0 < el.leastLength) {c : Option String}
    {items : List Value} (ha : el.AdmitsAll items) {e : List UInt8}
    (he : el.encodeItems c items = .ok e) (hlen : e.length < Nat.pow 2 31) :
    items.length < Nat.pow 2 31 := by
  have hcount := FieldType.itemsLength_le el c items ha e he
  have : items.length ≤ items.length * el.leastLength := Nat.le_mul_of_pos_right _ hs
  omega

mutual

/-- A value of a solid type whose bytes number fewer than `2 ^ 31` is bounded as the wire
carries it: each length inside it is at most the whole, and a vector's count is at most its
bytes. -/
theorem FieldType.bounded_of_encode (t : FieldType) :
    (v : Value) → t.solid → t.Admits v → (bs : List UInt8) → t.encode v = .ok bs →
      bs.length < Nat.pow 2 31 → v.sent.Bounded
  | .buffer (some b) => by
    intro _ ht bs h hlen
    cases t <;> cases ht
    cases h
    simp only [Writer.bufferBytes, List.length_append] at hlen
    exact Nat.lt_of_le_of_lt (Nat.le_add_left _ _) hlen
  | .ustring s => fun _ ht _ h hlen => FieldType.bounded_of_encodeString ht s h hlen
  | .vector (some items) => by
    intro hs ht bs h hlen
    cases t
    case vector el =>
      obtain ⟨c, hc, rfl⟩ := Except.map_eq_ok.mp h
      simp only [FieldType.solid, Bool.and_eq_true, decide_eq_true_eq] at hs
      have hc' : c.length < Nat.pow 2 31 := by simp at hlen ⊢; omega
      refine ⟨?_, FieldType.boundedAll_of_encode el none items hs.2 ht c hc hc'⟩
      rw [Value.length_sentItems]
      exact FieldType.count_lt hs.1 ht hc hc'
    all_goals cases ht
  | .record s vs c => by
    intro hs ht bs h hlen
    cases t
    case record s' =>
      obtain ⟨rfl, hvs⟩ := ht
      obtain ⟨m, n, fs⟩ := s
      exact FieldType.boundedEach_of_encode c fs vs hs hvs bs h hlen
    all_goals cases ht
  | .int _ | .long _ | .buffer none | .boolean _ | .vector none => by
    intro _ _ _ _ _
    trivial
termination_by v => sizeOf v
decreasing_by all_goals (simp only [Value.vector.sizeOf_spec, Value.record.sizeOf_spec,
  Option.some.sizeOf_spec]; omega)

/-- The items of a vector of a solid element type, fewer than `2 ^ 31` bytes in all, are
bounded as the wire carries them. -/
theorem FieldType.boundedAll_of_encode (el : FieldType) :
    (c : Option String) → (items : List Value) → el.solid → el.AdmitsAll items →
      (bs : List UInt8) → el.encodeItems c items = .ok bs → bs.length < Nat.pow 2 31 →
      Value.AllBounded (Value.sentItems c items)
  | _, [] => by intro _ _ _ _ _; trivial
  | c, v :: vs => by
    intro hs ha bs h hlen
    obtain ⟨b, hv, d, hvs, rfl⟩ := encodeItems_cons_ok h
    simp only [List.length_append] at hlen
    have hrest := FieldType.boundedAll_of_encode el c vs hs ha.2 d hvs (by omega)
    -- the first item, rewritten or not, is bounded by its own bytes
    cases c with
    | none => exact ⟨el.bounded_of_encode v hs ha.1 b hv (by omega), hrest⟩
    | some root =>
      cases v with
      | ustring s =>
        cases s with
        | some p => exact ⟨FieldType.bounded_of_encodeString ha.1 _ hv (by omega), hrest⟩
        | none => exact ⟨el.bounded_of_encode _ hs ha.1 b hv (by omega), hrest⟩
      | _ => exact ⟨el.bounded_of_encode _ hs ha.1 b hv (by omega), hrest⟩
termination_by _ items => sizeOf items
decreasing_by all_goals (simp only [List.cons.sizeOf_spec]; omega)

/-- The values of a record of solid fields, fewer than `2 ^ 31` bytes in all, are bounded as
the wire carries them under the record's chroot. -/
theorem FieldType.boundedEach_of_encode :
    (c : Option String) → (fs : List Field) → (vs : List Value) → Field.allSolid fs →
      FieldType.AdmitsEach fs vs → (bs : List UInt8) → FieldType.encodeFields c fs vs = .ok bs →
      bs.length < Nat.pow 2 31 → Value.AllBounded (Value.sentFields c fs vs)
  | _, [], [] => by intro _ _ _ _ _; trivial
  | c, .mk name t :: fs, v :: vs => by
    intro hs ha bs h hlen
    obtain ⟨b, hv, d, hvs, rfl⟩ := encodeFields_cons_ok h
    simp only [Field.allSolid, Bool.and_eq_true] at hs
    simp only [List.length_append] at hlen
    have hrest := FieldType.boundedEach_of_encode c fs vs hs.2 ha.2 d hvs (by omega)
    -- the first field, as it goes out, is bounded by its own bytes
    cases c with
    | none => exact ⟨t.bounded_of_encode v hs.1 ha.1 b hv (by omega), hrest⟩
    | some root =>
      cases v with
      | ustring s =>
        cases s with
        | some p => exact ⟨FieldType.bounded_of_encodeString ha.1 _ hv (by omega), hrest⟩
        | none => exact ⟨t.bounded_of_encode _ hs.1 ha.1 b hv (by omega), hrest⟩
      | vector items =>
        cases items with
        | some items =>
          have hty := ha.1
          have hst := hs.1
          cases t
          case vector el =>
            obtain ⟨e, he, rfl⟩ := Except.map_eq_ok.mp hv
            simp only [FieldType.solid, Bool.and_eq_true, decide_eq_true_eq] at hst
            have he' : e.length < Nat.pow 2 31 := by simp at hlen ⊢; omega
            refine ⟨⟨?_, FieldType.boundedAll_of_encode el _ items hst.2 hty e he he'⟩, hrest⟩
            rw [Value.length_sentItems]
            exact FieldType.count_lt hst.1 hty he he'
          all_goals cases hty
        | none => exact ⟨t.bounded_of_encode _ hs.1 ha.1 b hv (by omega), hrest⟩
      | _ => exact ⟨t.bounded_of_encode _ hs.1 ha.1 b hv (by omega), hrest⟩
  | _, [], _ :: _ | _, _ :: _, [] => by intro _ ha; cases ha
termination_by _ _ vs => sizeOf vs
decreasing_by all_goals (simp only [List.cons.sizeOf_spec, Value.vector.sizeOf_spec,
  Option.some.sizeOf_spec]; omega)

end

end Ensemble
