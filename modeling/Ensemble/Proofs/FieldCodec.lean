import Ensemble.Proofs.Wire
import Ensemble.Record.Codec

/-! # The field codec: measuring, writing and reading agree

`FieldType.encode t v` is what writing `v` as a value of type `t` appends when the writer never
runs short of room: the bytes, or the type mismatch it stops at. Measuring, writing and reading
follow the same recursion over the value (a vector's items, a record's fields in the order of
the class the value carries), and each is related to `encode` once:

* `put_yields`: the writer appends exactly `encode`'s bytes, or stops with its error;
* `byteLength_eq`: the measured length is the length of `encode`'s bytes, and its errors are
  `encode`'s, which are all type mismatches (`encode_error`);
* `encode_ok_of_holds`: a value of its type (`FieldType.Holds`: the kinds agree all the way
  down, and a record's class has the type's class name) is encoded without error; an admitted
  value (`FieldType.Admits`: a record is of the type's own class) is of its type
  (`holds_of_admits`), which gives `encode_ok`;
* `get_encode`: reading takes back what was written, when every length inside the value fits a
  non-negative `int` (`Value.Bounded`).

`codec_round_trip` puts these together for `write` and `read` at an offset into a buffer. -/

namespace Ensemble

/-! ### The bytes of a value -/

/-- The bytes of a string as a value of type `t`. -/
def FieldType.encodeString (t : FieldType) (s : Option String) : Except Error (List UInt8) :=
  match t with
  | .ustring => .ok (Writer.bufferBytes (s.map Utf8.encode))
  | _ => .error (mismatch (.ustring s) t)

mutual

/-- The bytes of `v` as a value of type `t`, when the writer never runs short of room: what
`FieldType.put` appends, or the mismatch it stops at. -/
def FieldType.encode (t : FieldType) : Value → Except Error (List UInt8)
  | .int x => match t with
    | .int => .ok (BigEndian.ofInt32 x)
    | _ => .error (mismatch (.int x) t)
  | .long x => match t with
    | .long => .ok x.bytes
    | _ => .error (mismatch (.long x) t)
  | .buffer b => match t with
    | .buffer => .ok (Writer.bufferBytes b)
    | _ => .error (mismatch (.buffer b) t)
  | .ustring s => t.encodeString s
  | .boolean b => match t with
    | .boolean => .ok [if b then 1 else 0]
    | _ => .error (mismatch (.boolean b) t)
  | .vector none => match t with
    | .vector _ => .ok (BigEndian.ofInt32 (-1))
    | _ => .error (mismatch (.vector none) t)
  | .vector (some items) => match t with
    | .vector e =>
      (BigEndian.ofInt32 (Int32.ofNat items.length) ++ ·) <$> FieldType.encodeItems e none items
    | _ => .error (mismatch (.vector (some items)) t)
  | .record s vs c => match t with
    | .record _ => FieldType.encodeFields c s.fields vs
    | _ => .error (mismatch (.record s vs c) t)

/-- The bytes of the items of a vector of element type `e`, one after another; under `some c`,
each string item with the chroot `c` in front. -/
def FieldType.encodeItems (e : FieldType) (c : Option String) :
    List Value → Except Error (List UInt8)
  | [] => .ok []
  | v :: vs => do
    let b ← (match c, v with
      | some root, .ustring (some p) => e.encodeString (some (prependChroot root p))
      | _, v => e.encode v)
    let rest ← FieldType.encodeItems e c vs
    pure (b ++ rest)

/-- The bytes of a record's values under its chroot `c`, field by field, each as it goes out. -/
def FieldType.encodeFields (c : Option String) : List Field → List Value → Except Error (List UInt8)
  | f :: fs, v :: vs => do
    let b ← (match c, v with
      | some root, .ustring (some p) =>
        f.type.encodeString (some (if f.name = pathField then prependChroot root p else p))
      | some root, .vector (some items) => match f.type with
        | .vector e =>
          (BigEndian.ofInt32 (Int32.ofNat items.length) ++ ·) <$>
            FieldType.encodeItems e (if f.name ∈ watchFields then some root else none) items
        | t => .error (mismatch (Record.outgoingValue root f.name (.vector (some items))) t)
      | _, v => f.type.encode v)
    let rest ← FieldType.encodeFields c fs vs
    pure (b ++ rest)
  | _, _ => .ok []

end

/-! ### The values the codec takes back -/

mutual

/-- `t` admits `v` all the way down: the kinds agree, each item of a present vector is admitted
by the element type, and a record value is of the type's own class with one admitted value per
field. -/
def FieldType.Admits : FieldType → Value → Prop
  | .int, .int _ | .long, .long _ | .buffer, .buffer _ | .ustring, .ustring _
  | .boolean, .boolean _ | .vector _, .vector none => True
  | .vector e, .vector (some items) => FieldType.AdmitsAll e items
  | .record s, .record s' vs _ => s' = s ∧ FieldType.AdmitsEach s.fields vs
  | _, _ => False

/-- Every item is admitted by the element type `e`. -/
def FieldType.AdmitsAll (e : FieldType) : List Value → Prop
  | [] => True
  | v :: vs => e.Admits v ∧ FieldType.AdmitsAll e vs

/-- One value per field, each admitted by its field's type. -/
def FieldType.AdmitsEach : List Field → List Value → Prop
  | [], [] => True
  | f :: fs, v :: vs => f.type.Admits v ∧ FieldType.AdmitsEach fs vs
  | _, _ => False

end

mutual

/-- `v` is deeply of type `t`: the kinds agree, each item of a present vector is of the element
type, and a record value is of the type's class by name and holds one value of the right type
per field of its own class. This is what writing needs, and what the check of `set` sees. -/
def FieldType.Holds : FieldType → Value → Prop
  | .int, .int _ | .long, .long _ | .buffer, .buffer _ | .ustring, .ustring _
  | .boolean, .boolean _ | .vector _, .vector none => True
  | .vector e, .vector (some items) => FieldType.HoldsAll e items
  | .record s, .record s' vs _ => s.same s' = true ∧ FieldType.HoldsEach s'.fields vs
  | _, _ => False

/-- Every item is of the element type `e`. -/
def FieldType.HoldsAll (e : FieldType) : List Value → Prop
  | [] => True
  | v :: vs => e.Holds v ∧ FieldType.HoldsAll e vs

/-- One value per field, each of its field's type. -/
def FieldType.HoldsEach : List Field → List Value → Prop
  | [], [] => True
  | f :: fs, v :: vs => f.type.Holds v ∧ FieldType.HoldsEach fs vs
  | _, _ => False

end

mutual

/-- Every buffer, string and vector inside `v` has fewer than `2 ^ 31` bytes (a string counted
in UTF-8) or items, so that its length prefix is a non-negative `int`. -/
def Value.Bounded : Value → Prop
  | .buffer (some bs) => bs.length < Nat.pow 2 31
  | .ustring (some s) => s.utf8ByteSize < Nat.pow 2 31
  | .vector (some items) => items.length < Nat.pow 2 31 ∧ Value.AllBounded items
  | .record _ vs _ => Value.AllBounded vs
  | _ => True

/-- Every value of the list is bounded. -/
def Value.AllBounded : List Value → Prop
  | [] => True
  | v :: vs => v.Bounded ∧ Value.AllBounded vs

end

mutual

/-- No record inside `v` carries a chroot, so that every value inside it goes out as it is
stored. -/
def Value.Plain : Value → Prop
  | .vector (some items) => Value.AllPlain items
  | .record _ vs c => c = none ∧ Value.AllPlain vs
  | _ => True

/-- No value of the list holds a record with a chroot. -/
def Value.AllPlain : List Value → Prop
  | [] => True
  | v :: vs => v.Plain ∧ Value.AllPlain vs

end

mutual

/-- The value as the wire carries it, which is what reading gives back after writing it: every
record inside it with its `path` field and watch lists rewritten under its own chroot, and no
chroot. -/
def Value.sent : Value → Value
  | .vector (some items) => .vector (some (Value.sentItems none items))
  | .record s vs c => .record s (Value.sentFields c s.fields vs) none
  | v => v

/-- The items of a vector as the wire carries them; under `some c`, each string with the chroot
`c` in front. -/
def Value.sentItems (c : Option String) : List Value → List Value
  | [] => []
  | v :: vs => (match c, v with
      | some root, .ustring (some p) => .ustring (some (prependChroot root p))
      | _, v => v.sent) :: Value.sentItems c vs

/-- A record's values as the wire carries them under its chroot `c`, field by field. -/
def Value.sentFields (c : Option String) : List Field → List Value → List Value
  | f :: fs, v :: vs => (match c, v with
      | some root, .ustring (some p) =>
        .ustring (some (if f.name = pathField then prependChroot root p else p))
      | some root, .vector (some items) =>
        .vector (some (Value.sentItems (if f.name ∈ watchFields then some root else none) items))
      | _, v => v.sent) :: Value.sentFields c fs vs
  | _, _ => []

end

/-! ### Strings -/

theorem FieldType.putString_yields (t : FieldType) (s : Option String) :
    Writer.Yields (t.putString s) (t.encodeString s) := by
  cases t
  case ustring => exact Writer.yields_ustring s
  all_goals exact Writer.yields_throw _

theorem FieldType.stringLength_eq (t : FieldType) (s : Option String) :
    t.stringLength s = List.length <$> t.encodeString s := by
  cases t
  case ustring =>
    cases s <;> simp [FieldType.stringLength, FieldType.encodeString, Writer.bufferBytes,
      Utf8.length_encode, Functor.map, Except.map]
  all_goals rfl

theorem FieldType.encodeString_error {t : FieldType} {s : Option String} {e : Error}
    (h : t.encodeString s = .error e) : ∃ w u, e = mismatch w u := by
  cases t <;> cases h <;> exact ⟨_, _, rfl⟩

/-- A type that admits a string writes every string. -/
theorem FieldType.encodeString_ok {t : FieldType} {s : Option String}
    (h : t.Admits (.ustring s)) (s' : Option String) : ∃ bs, t.encodeString s' = .ok bs := by
  cases t <;> cases h
  exact ⟨_, rfl⟩

theorem FieldType.encodeString_ok_of_holds {t : FieldType} {s : Option String}
    (h : t.Holds (.ustring s)) (s' : Option String) : ∃ bs, t.encodeString s' = .ok bs := by
  cases t <;> cases h
  exact ⟨_, rfl⟩

/-! ### Writing appends the bytes -/

mutual

/-- The writer appends exactly the bytes `encode` gives, or stops with its error. The three
statements follow the recursion of `put`: a vector through its items, a record through its
fields under its chroot. -/
theorem FieldType.put_yields (t : FieldType) :
    (v : Value) → Writer.Yields (t.put v) (t.encode v)
  | .int x => by
    cases t
    case int => exact Writer.yields_int x
    all_goals exact Writer.yields_throw _
  | .vector (some items) => by
    cases t
    case vector e => exact (Writer.yields_int _).bind (FieldType.putItems_yields e none items)
    all_goals exact Writer.yields_throw _
  | .record s vs c => by
    cases t
    case record => exact FieldType.putFields_yields c s.fields vs
    all_goals exact Writer.yields_throw _
  | .long x => by
    cases t
    case long => exact Writer.yields_long x
    all_goals exact Writer.yields_throw _
  | .buffer b => by
    cases t
    case buffer => exact Writer.yields_buffer b
    all_goals exact Writer.yields_throw _
  | .ustring s => t.putString_yields s
  | .boolean b => by
    cases t
    case boolean => exact Writer.yields_bool b
    all_goals exact Writer.yields_throw _
  | .vector none => by
    cases t
    case vector => exact Writer.yields_int _
    all_goals exact Writer.yields_throw _
termination_by v => sizeOf v
decreasing_by all_goals (simp only [Value.vector.sizeOf_spec, Value.record.sizeOf_spec,
  Option.some.sizeOf_spec]; omega)

theorem FieldType.putItems_yields (e : FieldType) (c : Option String) :
    (items : List Value) → Writer.Yields (e.putItems c items) (e.encodeItems c items)
  | [] => Writer.yields_pure
  | v :: vs => by
    have hvs := FieldType.putItems_yields e c vs
    -- only a present string under a chroot goes out rewritten
    cases c with
    | none => exact (e.put_yields v).bind hvs
    | some root =>
      cases v with
      | ustring s =>
        cases s with
        | some p => exact (e.putString_yields _).bind hvs
        | none => exact (e.put_yields _).bind hvs
      | _ => exact (e.put_yields _).bind hvs
termination_by items => sizeOf items
decreasing_by all_goals (simp only [List.cons.sizeOf_spec]; omega)

theorem FieldType.putFields_yields (c : Option String) :
    (fs : List Field) → (vs : List Value) →
      Writer.Yields (FieldType.putFields c fs vs) (FieldType.encodeFields c fs vs)
  | .mk name ty :: fs, v :: vs => by
    have hvs := FieldType.putFields_yields c fs vs
    -- under a chroot, a present string and a present vector go out as `outgoingValue` has them
    cases c with
    | none => exact (ty.put_yields v).bind hvs
    | some root =>
      cases v with
      | ustring s =>
        cases s with
        | some p => exact (ty.putString_yields _).bind hvs
        | none => exact (ty.put_yields _).bind hvs
      | vector items =>
        cases items with
        | some items =>
          cases ty
          case vector e =>
            have hi : Writer.Yields
                (do
                  Writer.int (Int32.ofNat items.length)
                  e.putItems (if name ∈ watchFields then some root else none) items)
                ((BigEndian.ofInt32 (Int32.ofNat items.length) ++ ·) <$>
                  e.encodeItems (if name ∈ watchFields then some root else none) items) :=
              (Writer.yields_int _).bind (FieldType.putItems_yields e _ items)
            exact hi.bind hvs
          all_goals exact (Writer.yields_throw _).bind hvs
        | none => exact (ty.put_yields _).bind hvs
      | _ => exact (ty.put_yields _).bind hvs
  | [], [] | [], _ :: _ | _ :: _, [] => Writer.yields_pure
termination_by _ vs => sizeOf vs
decreasing_by all_goals (simp only [List.cons.sizeOf_spec, Value.vector.sizeOf_spec,
  Option.some.sizeOf_spec]; omega)

end

/-! ### Measuring counts the bytes -/

/-- Summing two lengths is measuring two byte lists put together. -/
theorem length_bind_append {x y : Except Error Nat} {a b : Except Error (List UInt8)}
    (hx : x = List.length <$> a) (hy : y = List.length <$> b) :
    (do let n ← x; let m ← y; pure (n + m)) =
      List.length <$> (do let u ← a; let w ← b; pure (u ++ w)) := by
  subst hx hy
  cases a <;> cases b <;> simp [Functor.map, Except.map, bind, Except.bind, pure, Except.pure]

/-- A count prefix adds its four bytes to the length of the items after it. -/
theorem length_count_prefix {x : Except Error Nat} {a : Except Error (List UInt8)}
    (hx : x = List.length <$> a) (k : Int32) :
    (4 + ·) <$> x = List.length <$> ((BigEndian.ofInt32 k ++ ·) <$> a) := by
  subst hx
  cases a <;> simp [Functor.map, Except.map, BigEndian.length_ofInt32, Nat.add_comm]

mutual

theorem FieldType.byteLength_eq (t : FieldType) :
    (v : Value) → t.byteLength v = List.length <$> t.encode v
  | .int x => by cases t <;> rfl
  | .long x => by
    cases t
    case long => exact congrArg Except.ok x.length_bytes.symm
    all_goals rfl
  | .buffer b => by
    cases t
    case buffer =>
      cases b <;>
        simp [FieldType.byteLength, FieldType.encode, Writer.bufferBytes, Functor.map, Except.map]
    all_goals rfl
  | .ustring s => t.stringLength_eq s
  | .boolean b => by cases t <;> rfl
  | .vector none => by cases t <;> rfl
  | .vector (some items) => by
    cases t
    case vector e => exact length_count_prefix (FieldType.itemsLength_eq e none items) _
    all_goals rfl
  | .record s vs c => by
    cases t
    case record => exact FieldType.fieldsLength_eq c s.fields vs
    all_goals rfl
termination_by v => sizeOf v
decreasing_by all_goals (simp only [Value.vector.sizeOf_spec, Value.record.sizeOf_spec,
  Option.some.sizeOf_spec]; omega)

theorem FieldType.itemsLength_eq (e : FieldType) (c : Option String) :
    (items : List Value) → e.itemsLength c items = List.length <$> e.encodeItems c items
  | [] => rfl
  | v :: vs => by
    have hvs := FieldType.itemsLength_eq e c vs
    cases c with
    | none => exact length_bind_append (e.byteLength_eq v) hvs
    | some root =>
      cases v with
      | ustring s =>
        cases s with
        | some p => exact length_bind_append (e.stringLength_eq _) hvs
        | none => exact length_bind_append (e.byteLength_eq _) hvs
      | _ => exact length_bind_append (e.byteLength_eq _) hvs
termination_by items => sizeOf items
decreasing_by all_goals (simp only [List.cons.sizeOf_spec]; omega)

theorem FieldType.fieldsLength_eq (c : Option String) :
    (fs : List Field) → (vs : List Value) →
      FieldType.fieldsLength c fs vs = List.length <$> FieldType.encodeFields c fs vs
  | .mk name ty :: fs, v :: vs => by
    have hvs := FieldType.fieldsLength_eq c fs vs
    cases c with
    | none => exact length_bind_append (ty.byteLength_eq v) hvs
    | some root =>
      cases v with
      | ustring s =>
        cases s with
        | some p => exact length_bind_append (ty.stringLength_eq _) hvs
        | none => exact length_bind_append (ty.byteLength_eq _) hvs
      | vector items =>
        cases items with
        | some items =>
          rw [FieldType.fieldsLength, FieldType.encodeFields]
          refine length_bind_append ?_ hvs
          cases ty
          case vector e => exact length_count_prefix (FieldType.itemsLength_eq e _ items) _
          all_goals rfl
        | none => exact length_bind_append (ty.byteLength_eq _) hvs
      | _ => exact length_bind_append (ty.byteLength_eq _) hvs
  | [], [] | [], _ :: _ | _ :: _, [] => rfl
termination_by _ vs => sizeOf vs
decreasing_by all_goals (simp only [List.cons.sizeOf_spec, Value.vector.sizeOf_spec,
  Option.some.sizeOf_spec]; omega)

end

/-! ### Errors -/

/-- Bytes put together fail with the error of the first part that fails. -/
theorem append_eq_error {x y : Except Error (List UInt8)} {e : Error}
    (h : (do let u ← x; let w ← y; pure (u ++ w)) = .error e) : x = .error e ∨ y = .error e := by
  cases x <;> cases y <;> simp_all [bind, Except.bind, pure, Except.pure]

theorem map_eq_error {f : List UInt8 → List UInt8} {x : Except Error (List UInt8)} {e : Error}
    (h : f <$> x = .error e) : x = .error e := by
  cases x <;> simp_all [Functor.map, Except.map]

mutual

/-- Measuring and writing stop only at a value whose kind does not match its type. -/
theorem FieldType.encode_error (t : FieldType) :
    (v : Value) → (e : Error) → t.encode v = .error e → ∃ w u, e = mismatch w u
  | .vector (some items) => by
    intro e h
    cases t
    case vector el => exact FieldType.encodeItems_error el none items _ (map_eq_error h)
    all_goals cases h; exact ⟨_, _, rfl⟩
  | .record s vs c => by
    intro e h
    cases t
    case record => exact FieldType.encodeFields_error c s.fields vs _ h
    all_goals cases h; exact ⟨_, _, rfl⟩
  | .ustring s => fun _ h => FieldType.encodeString_error h
  | .int _ | .long _ | .buffer _ | .boolean _ | .vector none => by
    intro e h
    cases t <;> cases h <;> exact ⟨_, _, rfl⟩
termination_by v => sizeOf v
decreasing_by all_goals (simp only [Value.vector.sizeOf_spec, Value.record.sizeOf_spec,
  Option.some.sizeOf_spec]; omega)

theorem FieldType.encodeItems_error (el : FieldType) (c : Option String) :
    (items : List Value) → (e : Error) → el.encodeItems c items = .error e →
      ∃ w u, e = mismatch w u
  | [] => by intro e h; cases h
  | v :: vs => by
    intro e h
    rw [FieldType.encodeItems.eq_def] at h
    rcases append_eq_error h with hv | hvs
    · cases c with
      | none => exact el.encode_error v e hv
      | some root =>
        cases v with
        | ustring s =>
          cases s with
          | some p => exact FieldType.encodeString_error hv
          | none => exact el.encode_error _ e hv
        | _ => exact el.encode_error _ e hv
    · exact FieldType.encodeItems_error el c vs e hvs
termination_by items => sizeOf items
decreasing_by all_goals (simp only [List.cons.sizeOf_spec]; omega)

theorem FieldType.encodeFields_error (c : Option String) :
    (fs : List Field) → (vs : List Value) → (e : Error) →
      FieldType.encodeFields c fs vs = .error e → ∃ w u, e = mismatch w u
  | f :: fs, v :: vs => by
    intro e h
    rw [FieldType.encodeFields.eq_def] at h
    rcases append_eq_error h with hv | hvs
    · cases c with
      | none => exact f.type.encode_error v e hv
      | some root =>
        cases v with
        | ustring s =>
          cases s with
          | some p => exact FieldType.encodeString_error hv
          | none => exact f.type.encode_error _ e hv
        | vector items =>
          cases items with
          | some items =>
            revert hv
            cases f.type
            case vector el => exact fun hv => FieldType.encodeItems_error el _ items e (map_eq_error hv)
            all_goals exact fun hv => by cases hv; exact ⟨_, _, rfl⟩
          | none => exact f.type.encode_error _ e hv
        | _ => exact f.type.encode_error _ e hv
    · exact FieldType.encodeFields_error c fs vs e hvs
  | [], [] | [], _ :: _ | _ :: _, [] => by intro e h; cases h
termination_by _ vs => sizeOf vs
decreasing_by all_goals (simp only [List.cons.sizeOf_spec, Value.vector.sizeOf_spec,
  Option.some.sizeOf_spec]; omega)

end

/-- Bytes put together are there when both parts are. -/
theorem append_ok {x y : Except Error (List UInt8)} {u w : List UInt8} (hx : x = .ok u)
    (hy : y = .ok w) : (do let a ← x; let b ← y; pure (a ++ b)) = .ok (u ++ w) := by
  subst hx hy
  rfl

mutual

/-- A value of a type is measured and written without error, whatever the chroots of the
records inside it: measuring and writing follow the class a record value carries, which is the
class its values are of. -/
theorem FieldType.encode_ok_of_holds (t : FieldType) :
    (v : Value) → t.Holds v → ∃ bs, t.encode v = .ok bs
  | .vector (some items) => by
    intro ht
    cases t
    case vector el =>
      obtain ⟨c, hc⟩ := FieldType.encodeItems_ok_of_holds el none items ht
      exact ⟨_, by rw [FieldType.encode, hc]; rfl⟩
    all_goals cases ht
  | .record s vs c => by
    intro ht
    cases t
    case record => exact FieldType.encodeFields_ok_of_holds c s.fields vs ht.2
    all_goals cases ht
  | .ustring s => fun ht => FieldType.encodeString_ok_of_holds ht s
  | .int _ | .long _ | .buffer _ | .boolean _ | .vector none => by
    intro ht
    -- a primitive value is written whole; only the admitting type is left
    cases t <;> cases ht
    exact ⟨_, rfl⟩
termination_by v => sizeOf v
decreasing_by all_goals (simp only [Value.vector.sizeOf_spec, Value.record.sizeOf_spec,
  Option.some.sizeOf_spec]; omega)

theorem FieldType.encodeItems_ok_of_holds (el : FieldType) (c : Option String) :
    (items : List Value) → el.HoldsAll items → ∃ bs, el.encodeItems c items = .ok bs
  | [] => fun _ => ⟨[], rfl⟩
  | v :: vs => by
    intro ha
    obtain ⟨rest, hrest⟩ := FieldType.encodeItems_ok_of_holds el c vs ha.2
    -- the item's own bytes, rewritten or not, then the rest
    cases c with
    | none =>
      obtain ⟨b, hb⟩ := el.encode_ok_of_holds v ha.1
      exact ⟨b ++ rest, append_ok hb hrest⟩
    | some root =>
      cases v with
      | ustring s =>
        cases s with
        | some p =>
          obtain ⟨b, hb⟩ := FieldType.encodeString_ok_of_holds ha.1 (some (prependChroot root p))
          exact ⟨b ++ rest, append_ok hb hrest⟩
        | none =>
          obtain ⟨b, hb⟩ := el.encode_ok_of_holds _ ha.1
          exact ⟨b ++ rest, append_ok hb hrest⟩
      | _ =>
        obtain ⟨b, hb⟩ := el.encode_ok_of_holds _ ha.1
        exact ⟨b ++ rest, append_ok hb hrest⟩
termination_by items => sizeOf items
decreasing_by all_goals (simp only [List.cons.sizeOf_spec]; omega)

theorem FieldType.encodeFields_ok_of_holds (c : Option String) :
    (fs : List Field) → (vs : List Value) → FieldType.HoldsEach fs vs →
      ∃ bs, FieldType.encodeFields c fs vs = .ok bs
  | [], [] => fun _ => ⟨[], rfl⟩
  | .mk name ty :: fs, v :: vs => by
    intro ha
    obtain ⟨rest, hrest⟩ := FieldType.encodeFields_ok_of_holds c fs vs ha.2
    -- the field's own bytes, as it goes out under the chroot, then the rest
    cases c with
    | none =>
      obtain ⟨b, hb⟩ := ty.encode_ok_of_holds v ha.1
      exact ⟨b ++ rest, append_ok hb hrest⟩
    | some root =>
      cases v with
      | ustring s =>
        cases s with
        | some p =>
          obtain ⟨b, hb⟩ := FieldType.encodeString_ok_of_holds ha.1
            (some (if name = pathField then prependChroot root p else p))
          exact ⟨b ++ rest, append_ok hb hrest⟩
        | none =>
          obtain ⟨b, hb⟩ := ty.encode_ok_of_holds _ ha.1
          exact ⟨b ++ rest, append_ok hb hrest⟩
      | vector items =>
        cases items with
        | some items =>
          have hty := ha.1
          cases ty
          case vector el =>
            obtain ⟨b, hb⟩ := FieldType.encodeItems_ok_of_holds el
              (if name ∈ watchFields then some root else none) items hty
            have hb' : (BigEndian.ofInt32 (Int32.ofNat items.length) ++ ·) <$>
                el.encodeItems (if name ∈ watchFields then some root else none) items
                = .ok (BigEndian.ofInt32 (Int32.ofNat items.length) ++ b) := by
              rw [hb]
              rfl
            exact ⟨_, append_ok hb' hrest⟩
          all_goals cases hty
        | none =>
          obtain ⟨b, hb⟩ := ty.encode_ok_of_holds _ ha.1
          exact ⟨b ++ rest, append_ok hb hrest⟩
      | _ =>
        obtain ⟨b, hb⟩ := ty.encode_ok_of_holds _ ha.1
        exact ⟨b ++ rest, append_ok hb hrest⟩
  | [], _ :: _ | _ :: _, [] => fun ha => ha.elim
termination_by _ vs => sizeOf vs
decreasing_by all_goals (simp only [List.cons.sizeOf_spec, Value.vector.sizeOf_spec,
  Option.some.sizeOf_spec]; omega)

end

theorem Schema.same_self (s : Schema) : s.same s = true := by
  simp [Schema.same]

mutual

/-- An admitted value is of its type: the class of a record value is the type's own. -/
theorem FieldType.holds_of_admits (t : FieldType) : (v : Value) → t.Admits v → t.Holds v
  | .vector (some items) => by
    intro ht
    cases t
    case vector el => exact FieldType.holdsAll_of_admitsAll el items ht
    all_goals cases ht
  | .record s vs c => by
    intro ht
    cases t
    case record s' =>
      obtain ⟨rfl, hvs⟩ := ht
      exact ⟨s.same_self, FieldType.holdsEach_of_admitsEach s.fields vs hvs⟩
    all_goals cases ht
  | .int _ | .long _ | .buffer _ | .ustring _ | .boolean _ | .vector none => by
    intro ht
    cases t <;> cases ht
    all_goals trivial

theorem FieldType.holdsAll_of_admitsAll (el : FieldType) :
    (items : List Value) → el.AdmitsAll items → el.HoldsAll items
  | [] => fun _ => trivial
  | v :: vs => fun ha => ⟨el.holds_of_admits v ha.1, FieldType.holdsAll_of_admitsAll el vs ha.2⟩

theorem FieldType.holdsEach_of_admitsEach :
    (fs : List Field) → (vs : List Value) → FieldType.AdmitsEach fs vs → FieldType.HoldsEach fs vs
  | [], [] => fun _ => trivial
  | f :: fs, v :: vs => fun ha =>
    ⟨f.type.holds_of_admits v ha.1, FieldType.holdsEach_of_admitsEach fs vs ha.2⟩
  | [], _ :: _ | _ :: _, [] => fun ha => ha.elim

end

/-- An admitted value is measured and written without error. -/
theorem FieldType.encode_ok (t : FieldType) (v : Value) (h : t.Admits v) :
    ∃ bs, t.encode v = .ok bs :=
  t.encode_ok_of_holds v (t.holds_of_admits v h)

theorem FieldType.encodeFields_ok (c : Option String) (fs : List Field) (vs : List Value)
    (h : FieldType.AdmitsEach fs vs) : ∃ bs, FieldType.encodeFields c fs vs = .ok bs :=
  FieldType.encodeFields_ok_of_holds c fs vs (FieldType.holdsEach_of_admitsEach fs vs h)

/-! ### Reading takes back what was written -/

theorem Value.length_sentItems (c : Option String) :
    (items : List Value) → (Value.sentItems c items).length = items.length
  | [] => rfl
  | _ :: items => congrArg (· + 1) (Value.length_sentItems c items)

/-- The bytes of a vector's items: the first item's, then the rest's. -/
theorem encodeItems_cons_ok {el : FieldType} {c : Option String} {v : Value} {vs : List Value}
    {bs : List UInt8} (h : el.encodeItems c (v :: vs) = .ok bs) :
    ∃ b, (match c, v with
        | some root, .ustring (some p) => el.encodeString (some (prependChroot root p))
        | _, v => el.encode v) = .ok b ∧
      ∃ d, el.encodeItems c vs = .ok d ∧ bs = b ++ d := by
  rw [FieldType.encodeItems.eq_def] at h
  obtain ⟨b, hv, h⟩ := Except.bind_eq_ok.mp h
  obtain ⟨d, hvs, h⟩ := Except.bind_eq_ok.mp h
  exact ⟨b, hv, d, hvs, (Except.ok.inj h).symm⟩

/-- The bytes of a record's values: the first field's, then the rest's. -/
theorem encodeFields_cons_ok {c : Option String} {f : Field} {fs : List Field} {v : Value}
    {vs : List Value} {bs : List UInt8} (h : FieldType.encodeFields c (f :: fs) (v :: vs) = .ok bs) :
    ∃ b, (match c, v with
        | some root, .ustring (some p) =>
          f.type.encodeString (some (if f.name = pathField then prependChroot root p else p))
        | some root, .vector (some items) => match f.type with
          | .vector e =>
            (BigEndian.ofInt32 (Int32.ofNat items.length) ++ ·) <$>
              FieldType.encodeItems e (if f.name ∈ watchFields then some root else none) items
          | t => .error (mismatch (Record.outgoingValue root f.name (.vector (some items))) t)
        | _, v => f.type.encode v) = .ok b ∧
      ∃ d, FieldType.encodeFields c fs vs = .ok d ∧ bs = b ++ d := by
  rw [FieldType.encodeFields.eq_def] at h
  obtain ⟨b, hv, h⟩ := Except.bind_eq_ok.mp h
  obtain ⟨d, hvs, h⟩ := Except.bind_eq_ok.mp h
  exact ⟨b, hv, d, hvs, (Except.ok.inj h).symm⟩

/-- The items after the first are bounded when all are. -/
theorem allBounded_sentItems_tail {c : Option String} {v : Value} {vs : List Value}
    (h : Value.AllBounded (Value.sentItems c (v :: vs))) :
    Value.AllBounded (Value.sentItems c vs) := by
  rw [Value.sentItems.eq_def] at h
  exact h.2

/-- The fields after the first are bounded when all are. -/
theorem allBounded_sentFields_tail {c : Option String} {f : Field} {fs : List Field} {v : Value}
    {vs : List Value} (h : Value.AllBounded (Value.sentFields c (f :: fs) (v :: vs))) :
    Value.AllBounded (Value.sentFields c fs vs) := by
  rw [Value.sentFields.eq_def] at h
  exact h.2

/-- An item read from the front of its bytes, and the rest read after it. -/
theorem times_go_cons {el : FieldType} {n : Nat} {acc : List Value} {b d rest : List UInt8}
    {w : Value} {ws : List Value} (hget : el.get (b ++ (d ++ rest)) = .ok (w, d ++ rest))
    (hrest : ∀ acc', Reader.times.go el.get n acc' (d ++ rest) = .ok (acc'.reverse ++ ws, rest)) :
    Reader.times.go el.get (n + 1) acc ((b ++ d) ++ rest) = .ok (acc.reverse ++ w :: ws, rest) := by
  rw [List.append_assoc, Reader.times.go, hget]
  dsimp only
  rw [hrest]
  simp

/-- A field read from the front of its bytes, and the other fields read after it. -/
theorem getFields_cons {name : String} {t : FieldType} {fs : List Field} {b d rest : List UInt8}
    {w : Value} {ws : List Value} (hget : t.get (b ++ (d ++ rest)) = .ok (w, d ++ rest))
    (hrest : FieldType.getFields fs (d ++ rest) = .ok (ws, rest)) :
    FieldType.getFields (.mk name t :: fs) ((b ++ d) ++ rest) = .ok (w :: ws, rest) := by
  rw [List.append_assoc]
  show (t.get >>= fun v => _) _ = _
  rw [Reader.bind_ok hget]
  show (FieldType.getFields fs >>= fun vs => _) _ = _
  rw [Reader.bind_ok hrest]
  rfl

/-- A string is read back from its bytes when they are fewer than `2 ^ 31`. -/
theorem FieldType.get_encodeString {t : FieldType} {s : Option String} (ht : t.Admits (.ustring s))
    (s' : Option String) (hb : (Value.ustring s').Bounded) {bs : List UInt8}
    (h : t.encodeString s' = .ok bs) (rest : List UInt8) :
    t.get (bs ++ rest) = .ok (.ustring s', rest) := by
  cases t <;> cases ht
  cases h
  refine Reader.map_ok (Reader.ustring_bytes ?_ rest)
  rintro s rfl
  exact hb

mutual

/-- Reading a value of type `t` takes back, from the front of any byte list, the bytes that
writing an admitted value appended: the value as the wire carries it, when every length inside
that is below `2 ^ 31`. -/
theorem FieldType.get_encode (t : FieldType) :
    (v : Value) → t.Admits v → v.sent.Bounded → (bs : List UInt8) → t.encode v = .ok bs →
      ∀ rest, t.get (bs ++ rest) = .ok (v.sent, rest)
  | .int x => by
    intro ht _ bs h rest
    cases t <;> cases ht
    cases h
    exact Reader.map_ok (Reader.int_ofInt32 x rest)
  | .long x => by
    intro ht _ bs h rest
    cases t <;> cases ht
    cases h
    exact Reader.map_ok (Reader.long_bytes x rest)
  | .buffer b => by
    intro ht hb bs h rest
    cases t <;> cases ht
    cases h
    refine Reader.map_ok (Reader.buffer_bytes ?_ rest)
    rintro bs rfl
    exact hb
  | .ustring s => fun ht hb _ h rest => FieldType.get_encodeString ht s hb h rest
  | .boolean b => by
    intro ht _ bs h rest
    cases t <;> cases ht
    cases h
    exact Reader.map_ok (Reader.bool_byte b rest)
  | .vector none => by
    intro ht _ bs h rest
    cases t <;> cases ht
    cases h
    exact Reader.bind_ok (Reader.length_absent rest)
  | .vector (some items) => by
    intro ht hb bs h rest
    cases t
    case vector el =>
      obtain ⟨c, hc, rfl⟩ := Except.map_eq_ok.mp h
      have hn : items.length < Nat.pow 2 31 := Value.length_sentItems none items ▸ hb.1
      rw [List.append_assoc]
      show (Reader.length >>= fun n => _) _ = _
      rw [Reader.bind_ok (Reader.length_present hn (c ++ rest))]
      exact Reader.map_ok (FieldType.times_encodeItems el none items ht hb.2 c hc [] rest)
    all_goals cases ht
  | .record s vs c => by
    intro ht hb bs h rest
    cases t
    case record s' =>
      obtain ⟨rfl, hvs⟩ := ht
      obtain ⟨m, n, fs⟩ := s
      exact Reader.map_ok (FieldType.getFields_encodeFields c fs vs hvs hb bs h rest)
    all_goals cases ht
termination_by v => sizeOf v
decreasing_by all_goals (simp only [Value.vector.sizeOf_spec, Value.record.sizeOf_spec,
  Option.some.sizeOf_spec]; omega)

/-- Reading `items.length` values of the element type takes back the items as the wire carries
them. The chroot is split on before anything else, so that the rewrite of each item is seen. -/
theorem FieldType.times_encodeItems (el : FieldType) :
    (c : Option String) → (items : List Value) → el.AdmitsAll items →
      Value.AllBounded (Value.sentItems c items) → (bs : List UInt8) →
      el.encodeItems c items = .ok bs →
      ∀ (acc : List Value) rest, Reader.times.go el.get items.length acc (bs ++ rest)
        = .ok (acc.reverse ++ Value.sentItems c items, rest)
  | c, [] => by
    intro _ _ bs h acc rest
    cases h
    simp [Reader.times.go, Value.sentItems]
  | none, v :: vs => by
    intro ha hb bs h acc rest
    obtain ⟨b, hv, d, hvs, rfl⟩ := encodeItems_cons_ok h
    exact times_go_cons (el.get_encode v ha.1 hb.1 b hv _)
      (fun acc' => FieldType.times_encodeItems el none vs ha.2 hb.2 d hvs acc' rest)
  | some root, v :: vs => by
    intro ha hb bs h acc rest
    obtain ⟨b, hv, d, hvs, rfl⟩ := encodeItems_cons_ok h
    have hrest := fun acc' => FieldType.times_encodeItems el (some root) vs ha.2
      (allBounded_sentItems_tail hb) d hvs acc' rest
    -- a present string goes out with the chroot in front; any other item as it is
    cases v with
    | ustring s =>
      cases s with
      | some p => exact times_go_cons (FieldType.get_encodeString ha.1 _ hb.1 hv _) hrest
      | none => exact times_go_cons (el.get_encode _ ha.1 hb.1 b hv _) hrest
    | _ => exact times_go_cons (el.get_encode _ ha.1 hb.1 b hv _) hrest
termination_by _ items => sizeOf items
decreasing_by all_goals (simp only [List.cons.sizeOf_spec]; omega)

/-- Reading a record's fields takes back its values as the wire carries them under its
chroot. -/
theorem FieldType.getFields_encodeFields :
    (c : Option String) → (fs : List Field) → (vs : List Value) → FieldType.AdmitsEach fs vs →
      Value.AllBounded (Value.sentFields c fs vs) → (bs : List UInt8) →
      FieldType.encodeFields c fs vs = .ok bs →
      ∀ rest, FieldType.getFields fs (bs ++ rest) = .ok (Value.sentFields c fs vs, rest)
  | c, [], [] => by
    intro _ _ bs h rest
    cases h
    rfl
  | none, .mk name t :: fs, v :: vs => by
    intro ha hb bs h rest
    obtain ⟨b, hv, d, hvs, rfl⟩ := encodeFields_cons_ok h
    exact getFields_cons (t.get_encode v ha.1 hb.1 b hv _)
      (FieldType.getFields_encodeFields none fs vs ha.2 hb.2 d hvs rest)
  | some root, .mk name t :: fs, v :: vs => by
    intro ha hb bs h rest
    obtain ⟨b, hv, d, hvs, rfl⟩ := encodeFields_cons_ok h
    have hrest := FieldType.getFields_encodeFields (some root) fs vs ha.2
      (allBounded_sentFields_tail hb) d hvs rest
    -- a present string and a present vector go out as `outgoingValue` has them
    cases v with
    | ustring s =>
      cases s with
      | some p => exact getFields_cons (FieldType.get_encodeString ha.1 _ hb.1 hv _) hrest
      | none => exact getFields_cons (t.get_encode _ ha.1 hb.1 b hv _) hrest
    | vector items =>
      cases items with
      | some items =>
        have hty := ha.1
        cases t
        case vector el =>
          obtain ⟨e, he, rfl⟩ := Except.map_eq_ok.mp hv
          have hn : items.length < Nat.pow 2 31 := Value.length_sentItems _ items ▸ hb.1.1
          refine getFields_cons ?_ hrest
          rw [List.append_assoc]
          show (Reader.length >>= fun n => _) _ = _
          rw [Reader.bind_ok (Reader.length_present hn (e ++ (d ++ rest)))]
          exact Reader.map_ok (FieldType.times_encodeItems el _ items hty hb.1.2 e he [] _)
        all_goals cases hty
      | none => exact getFields_cons (t.get_encode _ ha.1 hb.1 b hv _) hrest
    | _ => exact getFields_cons (t.get_encode _ ha.1 hb.1 b hv _) hrest
  | _, [], _ :: _ | _, _ :: _, [] => by
    intro ha
    cases ha
termination_by _ _ vs => sizeOf vs
decreasing_by all_goals (simp only [List.cons.sizeOf_spec, Value.vector.sizeOf_spec,
  Option.some.sizeOf_spec]; omega)

end

/-! ### Values without chroot -/

mutual

/-- An admitted value in which no record carries a chroot goes on the wire as it is. -/
theorem Value.sent_of_plain (t : FieldType) :
    (v : Value) → t.Admits v → v.Plain → v.sent = v
  | .vector (some items) => by
    intro ht hp
    cases t
    case vector el =>
      exact congrArg (fun l => Value.vector (some l)) (Value.sentItems_of_plain el items ht hp)
    all_goals cases ht
  | .record s vs c => by
    intro ht hp
    cases t
    case record s' =>
      obtain ⟨rfl, hvs⟩ := ht
      obtain ⟨rfl, hp⟩ := hp
      exact congrArg (fun l => Value.record s l none)
        (Value.sentFields_of_plain s.fields vs hvs hp)
    all_goals cases ht
  | .int _ | .long _ | .buffer _ | .ustring _ | .boolean _ | .vector none => fun _ _ => rfl

theorem Value.sentItems_of_plain (el : FieldType) :
    (items : List Value) → el.AdmitsAll items → Value.AllPlain items →
      Value.sentItems none items = items
  | [] => fun _ _ => rfl
  | v :: vs => fun ha hp => by
    show v.sent :: Value.sentItems none vs = v :: vs
    rw [Value.sent_of_plain el v ha.1 hp.1, Value.sentItems_of_plain el vs ha.2 hp.2]

theorem Value.sentFields_of_plain :
    (fs : List Field) → (vs : List Value) → FieldType.AdmitsEach fs vs → Value.AllPlain vs →
      Value.sentFields none fs vs = vs
  | [], [] => fun _ _ => rfl
  | f :: fs, v :: vs => fun ha hp => by
    show v.sent :: Value.sentFields none fs vs = v :: vs
    rw [Value.sent_of_plain f.type v ha.1 hp.1, Value.sentFields_of_plain fs vs ha.2 hp.2]
  | [], _ :: _ | _ :: _, [] => fun ha => ha.elim

end

/-! ### Writing into a buffer and reading from it -/

theorem length_splice {buf bs : List UInt8} {off : Nat} (h : off + bs.length ≤ buf.length) :
    (splice buf off bs).length = buf.length := by
  simp [splice]
  omega

theorem getElem?_splice_outside {buf bs : List UInt8} {off i : Nat}
    (h : off + bs.length ≤ buf.length) (hi : i < off ∨ off + bs.length ≤ i) :
    (splice buf off bs)[i]? = buf[i]? := by
  rcases hi with hi | hi
  · rw [splice, List.append_assoc, List.getElem?_append_left (by simp; omega),
      List.getElem?_take_of_lt hi]
  · have hoff : (buf.take off).length = off := by simp; omega
    rw [splice, List.getElem?_append_right (by simp; omega), List.getElem?_drop]
    simp only [List.length_append, hoff]
    congr 1
    omega

theorem drop_splice {buf bs : List UInt8} {off : Nat} (h : off ≤ buf.length) :
    (splice buf off bs).drop off = bs ++ buf.drop (off + bs.length) := by
  have hoff : (buf.take off).length = off := by simp; omega
  rw [splice, List.append_assoc, List.drop_append_of_le_length (by omega),
    List.drop_of_length_le (by omega)]
  simp

theorem FieldType.write_of_encode {t : FieldType} {v : Value} {bs : List UInt8}
    (h : t.encode v = .ok bs) {buf : List UInt8} {off : Nat}
    (hroom : off + bs.length ≤ buf.length) :
    t.write v buf off = .ok (bs.length, splice buf off bs) := by
  have hy := t.put_yields v
  rw [h] at hy
  rw [FieldType.write, if_neg (by omega), hy.run_ok (by omega)]
  rfl

theorem FieldType.read_of_get {t : FieldType} {v : Value} {bs rest buf : List UInt8}
    {off : Nat}
    (hoff : off ≤ buf.length) (hdrop : buf.drop off = bs ++ rest)
    (h : t.get (bs ++ rest) = .ok (v, rest)) : t.read buf off = .ok (v, bs.length) := by
  rw [FieldType.read, if_neg (by omega), hdrop, Reader.runCounting_append h]

/-- With room enough, the writer returns exactly the bytes or the error of `encode`. -/
theorem FieldType.run_put (t : FieldType) (v : Value) :
    ∃ need, ∀ room, need ≤ room → Writer.run (t.put v) room = t.encode v := by
  have hy := t.put_yields v
  cases h : t.encode v with
  | ok bs =>
    rw [h] at hy
    exact ⟨bs.length, fun room hr => hy.run_ok hr⟩
  | error e =>
    rw [h] at hy
    exact hy.run_error

/-! ### The codec -/

/-- **The field codec.** An admitted, bounded value has a length, whatever the chroots of the
records inside it; written at an offset that leaves room for it, it fills exactly that many
bytes and leaves the rest of the buffer as it was, and when no record inside it carries a chroot,
reading at that offset gives the value back with the same count, so that an absent buffer,
string or vector stays apart from an empty one. Every value whatsoever is measured as it is
written once the room suffices: both succeed with the same length, or both stop at the same type
mismatch. -/
theorem FieldType.codec_round_trip (t : FieldType) (v : Value) :
    (t.Admits v → v.Bounded → ∃ n, t.byteLength v = .ok n ∧
      ∀ (buf : List UInt8) (off : Nat), off + n ≤ buf.length →
        ∃ buf', t.write v buf off = .ok (n, buf') ∧ buf'.length = buf.length ∧
          (∀ i, i < off ∨ off + n ≤ i → buf'[i]? = buf[i]?) ∧
          (v.Plain → t.read buf' off = .ok (v, n))) ∧
    (∃ need, ∀ room, need ≤ room →
      List.length <$> Writer.run (t.put v) room = t.byteLength v) ∧
    (∀ e, t.byteLength v = .error e → ∃ w u, e = mismatch w u ∧
      e.message = "serialization error: value " ++ w.debug ++ " does not match field type " ++
        u.typeName) := by
  refine ⟨fun ha hb => ?_, ?_, fun e he => ?_⟩
  · obtain ⟨bs, hbs⟩ := t.encode_ok v ha
    refine ⟨bs.length, by rw [t.byteLength_eq, hbs]; rfl, fun buf off hroom => ?_⟩
    refine ⟨splice buf off bs, t.write_of_encode hbs hroom, length_splice hroom,
      fun i hi => getElem?_splice_outside hroom hi, fun hp => ?_⟩
    -- without a chroot inside, the value goes on the wire as it is
    have hsent := Value.sent_of_plain t v ha hp
    have hget := t.get_encode v ha (by rw [hsent]; exact hb) bs hbs
    rw [hsent] at hget
    exact t.read_of_get (by rw [length_splice hroom]; omega) (drop_splice (by omega)) (hget _)
  · obtain ⟨need, hrun⟩ := t.run_put v
    exact ⟨need, fun room hr => by rw [hrun room hr, t.byteLength_eq]⟩
  · have hv : t.encode v = .error e := by
      rw [t.byteLength_eq] at he
      cases h : t.encode v with
      | ok bs => rw [h] at he; cases he
      | error e' => rw [h] at he; cases he; rfl
    obtain ⟨w, u, rfl⟩ := t.encode_error v e hv
    exact ⟨w, u, rfl, rfl⟩

/-- The codec at a vector of strings holding a present string and an absent one. -/
theorem FieldType.codec_round_trip_strings :
    (FieldType.vector .ustring).Admits (.vector (some [.ustring (some "/a"), .ustring none])) ∧
      (Value.vector (some [.ustring (some "/a"), .ustring none])).Bounded ∧
      ∃ n, (FieldType.vector .ustring).byteLength
          (.vector (some [.ustring (some "/a"), .ustring none])) = .ok n ∧
        ∀ (buf : List UInt8) (off : Nat), off + n ≤ buf.length →
          ∃ buf', (FieldType.vector .ustring).write
              (.vector (some [.ustring (some "/a"), .ustring none])) buf off = .ok (n, buf') ∧
            buf'.length = buf.length ∧
            (∀ i, i < off ∨ off + n ≤ i → buf'[i]? = buf[i]?) ∧
            ((Value.vector (some [.ustring (some "/a"), .ustring none])).Plain →
              (FieldType.vector .ustring).read buf' off
                = .ok (.vector (some [.ustring (some "/a"), .ustring none]), n)) := by
  have ha : (FieldType.vector .ustring).Admits
      (.vector (some [.ustring (some "/a"), .ustring none])) := ⟨trivial, trivial, trivial⟩
  have hb : (Value.vector (some [.ustring (some "/a"), .ustring none])).Bounded :=
    ⟨by decide, show "/a".utf8ByteSize < Nat.pow 2 31 by decide, trivial, trivial⟩
  exact ⟨ha, hb, (FieldType.codec_round_trip _ _).1 ha hb⟩

end Ensemble
