import Ensemble.Proofs.RecordCodec
import Ensemble.Proofs.DecoderBounds

/-! # Well-formed records

A record is well formed (`Record.WellFormed`) when it holds one value per field of its class and
each value is deeply of its field's type (`FieldType.Holds`): the kinds agree, every item of a
present vector is of the element type, and a record value is of the field's class by name and is
itself well formed against its own class. The values a record can be given are the sound ones
(`Value.Sound`): every record inside them is well formed.

* `Record.wellFormed_new`: a new record of any class is well formed;
* `FieldType.accepts_iff`: on sound values, the check that `set` makes decides exactly whether
  the value is of the type;
* `Record.wellFormed_set`, `wellFormed_setChroot`, `wellFormed_strip`, `wellFormed_readFields`,
  `wellFormed_deserializeInto`: every operation keeps records well formed, reading included
  when a read fails midway and leaves the fields before it replaced; reads that all succeed
  make any record with at most one value per field well formed (`wellFormed_getFields`,
  `wellFormed_deserialize`);
* `Record.Built`, `Record.Built.wellFormed`: hence every record made through these operations is
  well formed;
* `Record.serialize_of_wellFormed`: a well-formed record has a length, and serializing it fails
  only for an offset past the buffer or a buffer too short, never for a type mismatch.
-/

namespace Ensemble

/-! ### Sound values -/

mutual

/-- Every record inside `v` holds one value of the right type per field of its class. -/
def Value.Sound : Value → Prop
  | .vector (some items) => Value.AllSound items
  | .record s vs _ => FieldType.HoldsEach s.fields vs
  | _ => True

/-- Every value of the list is sound. -/
def Value.AllSound : List Value → Prop
  | [] => True
  | v :: vs => v.Sound ∧ Value.AllSound vs

end

/-- A record holds one value per field of its class, each of its field's type. -/
def Record.WellFormed (r : Record) : Prop :=
  FieldType.HoldsEach r.schema.fields r.values

/-! ### Defaults -/

mutual

theorem FieldType.holds_default : (t : FieldType) → t.Holds t.default
  | .int | .long | .buffer | .ustring | .boolean | .vector _ => trivial
  | .record s => ⟨s.same_self, Schema.holdsEach_defaults s⟩

theorem Schema.holdsEach_defaults : (s : Schema) → FieldType.HoldsEach s.fields s.defaults
  | .mk _ _ fs => Field.holdsEach_defaults fs

theorem Field.holdsEach_defaults : (fs : List Field) → FieldType.HoldsEach fs (Field.defaults fs)
  | [] => trivial
  | .mk _ t :: fs => ⟨t.holds_default, Field.holdsEach_defaults fs⟩

end

/-- A new record of any class is well formed. -/
theorem Record.wellFormed_new (s : Schema) : (Record.new s).WellFormed :=
  s.holdsEach_defaults

/-! ### The check of `set` -/

mutual

/-- A value of a type is sound. -/
theorem FieldType.Holds.sound : (v : Value) → (t : FieldType) → t.Holds v → v.Sound
  | .vector (some items), t, h => by
    cases t
    case vector e => exact FieldType.HoldsAll.sound e items h
    all_goals exact h.elim
  | .record _ _ _, t, h => by
    cases t
    case record => exact h.2
    all_goals exact h.elim
  | .int _, _, _ | .long _, _, _ | .buffer _, _, _ | .ustring _, _, _ | .boolean _, _, _
  | .vector none, _, _ => trivial

theorem FieldType.HoldsAll.sound (e : FieldType) :
    (items : List Value) → FieldType.HoldsAll e items → Value.AllSound items
  | [], _ => trivial
  | v :: vs, h => ⟨FieldType.Holds.sound v e h.1, FieldType.HoldsAll.sound e vs h.2⟩

end

mutual

/-- On a sound value, the check of `set` decides exactly whether the value is of the type: for
a record value it compares classes by name only, and soundness supplies the rest. -/
theorem FieldType.accepts_iff : (v : Value) → v.Sound → (t : FieldType) →
    (t.accepts v = true ↔ t.Holds v)
  | .vector (some items), hv, t => by
    cases t
    case vector e =>
      simp only [FieldType.accepts, FieldType.Holds]
      exact FieldType.acceptsAll_iff e items hv
    all_goals simp [FieldType.accepts, FieldType.Holds]
  | .record s vs _, hv, t => by
    cases t
    case record s' =>
      simp only [FieldType.accepts, FieldType.Holds]
      exact ⟨fun h => ⟨h, hv⟩, fun h => h.1⟩
    all_goals simp [FieldType.accepts, FieldType.Holds]
  | .int _, _, t | .long _, _, t | .buffer _, _, t | .ustring _, _, t | .boolean _, _, t
  | .vector none, _, t => by
    cases t <;> simp [FieldType.accepts, FieldType.Holds]

theorem FieldType.acceptsAll_iff (e : FieldType) : (items : List Value) → Value.AllSound items →
    (FieldType.acceptsAll e items = true ↔ FieldType.HoldsAll e items)
  | [], _ => by simp [FieldType.acceptsAll, FieldType.HoldsAll]
  | v :: vs, h => by
    simp only [FieldType.acceptsAll, FieldType.HoldsAll, Bool.and_eq_true]
    rw [FieldType.accepts_iff v h.1 e, FieldType.acceptsAll_iff e vs h.2]

end

/-! ### One value replaced -/

theorem FieldType.HoldsEach.length_eq :
    ∀ {fs : List Field} {vs : List Value}, FieldType.HoldsEach fs vs → fs.length = vs.length
  | [], [], _ => rfl
  | _ :: _, _ :: _, h => congrArg (· + 1) (FieldType.HoldsEach.length_eq h.2)
  | [], _ :: _, h | _ :: _, [], h => h.elim

/-- The value at a position is of the type of the field at that position. -/
theorem FieldType.HoldsEach.getElem? :
    ∀ {fs : List Field} {vs : List Value} {i : Nat} {f : Field} {v : Value},
      FieldType.HoldsEach fs vs → fs[i]? = some f → vs[i]? = some v → f.type.Holds v
  | f' :: _, v' :: _, 0, _, _, h, hf, hv => by
    cases hf
    cases hv
    exact h.1
  | _ :: _, _ :: _, _ + 1, _, _, h, hf, hv => FieldType.HoldsEach.getElem? h.2 hf hv
  | [], _, _, _, _, _, hf, _ => by cases hf

/-- Replacing a value by one of its field's type keeps every field's value of its type. -/
theorem FieldType.HoldsEach.set :
    ∀ {fs : List Field} {vs : List Value} (i : Nat) {v : Value}, FieldType.HoldsEach fs vs →
      (∀ f, fs[i]? = some f → f.type.Holds v) → FieldType.HoldsEach fs (vs.set i v)
  | _ :: _, _ :: _, 0, _, h, hv => ⟨hv _ rfl, h.2⟩
  | _ :: _, _ :: _, i + 1, _, h, hv => ⟨h.1, FieldType.HoldsEach.set i h.2 hv⟩
  | [], [], _, _, h, _ => by simpa using h
  | [], _ :: _, _, _, h, _ | _ :: _, [], _, _, h, _ => h.elim

namespace Record

/-- `set` keeps a record well formed when it stores a sound value. -/
theorem wellFormed_set {r r' : Record} {name : String} {v : Value} (hr : r.WellFormed)
    (hv : v.Sound) (h : r.set name v = .ok r') : r'.WellFormed := by
  unfold set at h
  obtain ⟨i, -, h⟩ := Except.bind_eq_ok.mp h
  split at h
  · cases h
  · rename_i f hf
    split at h
    · rename_i hacc
      cases h
      exact FieldType.HoldsEach.set i hr fun f' hf' =>
        (Option.some.inj (hf.symm.trans hf')) ▸ (FieldType.accepts_iff v hv f.type).mp hacc
    · cases h

/-- A value that `set` refuses, or a field the class lacks, is an invalid argument. -/
theorem set_error {r : Record} {name : String} {v : Value} {e : Error}
    (h : r.set name v = .error e) : ∃ a, e = .invalidArgument a := by
  unfold set indexOf at h
  split at h
  · simp only [bind, Except.bind] at h
    split at h
    · cases h
      exact ⟨_, rfl⟩
    · split at h
      · cases h
      · cases h
        exact ⟨_, rfl⟩
  · cases h
    exact ⟨_, rfl⟩

theorem wellFormed_setChroot {r : Record} (hr : r.WellFormed) (c : Option String) :
    (r.setChroot c).WellFormed :=
  hr

/-- Stripping the chroot keeps a string a string. -/
theorem wellFormed_strip {r : Record} (hr : r.WellFormed) : r.strip.WellFormed := by
  unfold strip
  split
  · rename_i c i _ _
    split
    · rename_i p hp
      refine FieldType.HoldsEach.set i hr fun f hf => ?_
      -- the value stripped is a string, so its field is a string field
      have hold := hr.getElem? hf hp
      obtain ⟨_, t⟩ := f
      cases t with
      | ustring => trivial
      | _ => exact hold.elim
    · exact hr
  · exact hr

/-! ### Reading -/

end Record

namespace Reader

/-- Every value that `r` reads satisfies `P`. -/
def Gives {α : Type} (P : α → Prop) (r : Reader α) : Prop :=
  ∀ bs a rest, r bs = .ok (a, rest) → P a

section

variable {α β : Type}

theorem gives_pure {P : α → Prop} {a : α} (h : P a) : Gives P (pure a : Reader α) := by
  intro bs b rest hr
  cases hr
  exact h

theorem gives_true (r : Reader α) : Gives (fun _ => True) r :=
  fun _ _ _ _ => trivial

theorem Gives.bind {P : α → Prop} {Q : β → Prop} {x : Reader α} {f : α → Reader β}
    (hx : Gives P x) (hf : ∀ a, P a → Gives Q (f a)) : Gives Q (x >>= f) := by
  intro bs b rest h
  obtain ⟨a, mid, h₁, h₂⟩ := bind_eq_ok h
  exact hf a (hx bs a mid h₁) mid b rest h₂

theorem Gives.map {P : α → Prop} {Q : β → Prop} {x : Reader α} (hx : Gives P x) {f : α → β}
    (hf : ∀ a, P a → Q (f a)) : Gives Q (f <$> x) := by
  intro bs b rest h
  obtain ⟨a, ha, rfl⟩ := map_eq_ok h
  exact hf a (hx bs a rest ha)

/-- Reading `n` values that each satisfy `P` gives a list of them. -/
theorem gives_times {P : α → Prop} {r : Reader α} (hr : Gives P r) (n : Nat) :
    Gives (fun as => ∀ a ∈ as, P a) (times r n) := by
  suffices ∀ n acc bs res rest, (∀ a ∈ acc, P a) → times.go r n acc bs = .ok (res, rest) →
      ∀ a ∈ res, P a from fun bs res rest h => this n [] bs res rest (by simp) h
  intro n
  induction n with
  | zero =>
    intro acc bs res rest hacc h
    cases h
    simpa using hacc
  | succ n ih =>
    intro acc bs res rest hacc h
    unfold times.go at h
    split at h
    · rename_i a mid hrbs
      refine ih _ _ _ _ ?_ h
      intro b hb
      rcases List.mem_cons.mp hb with rfl | hb
      · exact hr bs b mid hrbs
      · exact hacc b hb
    · cases h

end

end Reader

open Reader

theorem FieldType.holdsAll_of_forall {e : FieldType} :
    ∀ {items : List Value}, (∀ v ∈ items, e.Holds v) → FieldType.HoldsAll e items
  | [], _ => trivial
  | v :: _, h =>
    ⟨h v List.mem_cons_self, holdsAll_of_forall fun w hw => h w (List.mem_cons_of_mem v hw)⟩

theorem FieldType.holdsAll_mem {e : FieldType} :
    ∀ {items : List Value} {v : Value}, FieldType.HoldsAll e items → v ∈ items → e.Holds v
  | _ :: _, _, h, hv => by
    rcases List.mem_cons.mp hv with rfl | hv
    · exact h.1
    · exact holdsAll_mem h.2 hv

mutual

/-- Every value read as a type is of that type. -/
theorem FieldType.get_gives : (t : FieldType) → Gives t.Holds t.get
  | .int => (gives_true _).map fun _ _ => trivial
  | .long => (gives_true _).map fun _ _ => trivial
  | .buffer => (gives_true _).map fun _ _ => trivial
  | .ustring => (gives_true _).map fun _ _ => trivial
  | .boolean => (gives_true _).map fun _ _ => trivial
  | .vector e => by
    rw [FieldType.get]
    refine (gives_true _).bind fun n _ => ?_
    cases n with
    | none => exact gives_pure trivial
    | some n =>
      exact (gives_times (FieldType.get_gives e) n).map fun items h =>
        FieldType.holdsAll_of_forall h
  | .record (.mk m n fs) =>
    (FieldType.getFields_gives fs).map fun vs h => ⟨Schema.same_self _, h⟩

/-- The values read for a record's fields are one per field, each of its field's type. -/
theorem FieldType.getFields_gives :
    (fs : List Field) → Gives (FieldType.HoldsEach fs) (FieldType.getFields fs)
  | [] => gives_pure trivial
  | .mk _ t :: fs =>
    (FieldType.get_gives t).bind fun _ hv =>
      (FieldType.getFields_gives fs).bind fun _ hvs => gives_pure ⟨hv, hvs⟩

end

/-- Reading into values of the fields' types keeps them of the fields' types, whether the reads
succeed or one fails: each read replaces a value by one of its field's type. -/
theorem FieldType.HoldsEach.readInto :
    ∀ {fs : List Field} {vs : List Value} (bs : List UInt8), FieldType.HoldsEach fs vs →
      FieldType.HoldsEach fs (FieldType.readInto fs vs bs).1
  | [], _, _, _ => trivial
  | .mk _ t :: fs, v :: vs, bs, h => by
    cases hv : t.get bs with
    | error e =>
      simp only [FieldType.readInto, hv]
      exact h
    | ok p =>
      obtain ⟨w, rest⟩ := p
      simp only [FieldType.readInto, hv]
      exact ⟨FieldType.get_gives t bs w rest hv, FieldType.HoldsEach.readInto rest h.2⟩
  | _ :: _, [], _, h => h.elim

/-- Reads that all succeed give one value of each field's type, whatever the values before. -/
theorem FieldType.holdsEach_readInto_of_ok :
    ∀ {fs : List Field} {vs : List Value} {bs rest : List UInt8},
      (FieldType.readInto fs vs bs).2 = .ok rest →
      FieldType.HoldsEach fs (FieldType.readInto fs vs bs).1
  | [], _, _, _, _ => trivial
  | .mk _ t :: fs, vs, bs, rest, h => by
    cases hv : t.get bs with
    | error e => simp [FieldType.readInto, hv] at h
    | ok p =>
      obtain ⟨w, mid⟩ := p
      simp only [FieldType.readInto, hv] at h ⊢
      exact ⟨FieldType.get_gives t bs w mid hv, FieldType.holdsEach_readInto_of_ok h⟩

namespace Record

/-- Reading into a well-formed record leaves it well formed, whether the reads succeed or one
fails midway with the fields before it replaced. -/
theorem wellFormed_readFields {r : Record} (hr : r.WellFormed) (bs : List UInt8) :
    (r.readFields bs).1.WellFormed :=
  FieldType.HoldsEach.readInto bs hr

/-- Reads that all succeed make a record well formed, whatever it held before. -/
theorem wellFormed_readFields_of_ok {r r' : Record} {bs rest : List UInt8}
    (h : r.readFields bs = (r', .ok rest)) : r'.WellFormed := by
  obtain rfl : (r.readFields bs).1 = r' := congrArg Prod.fst h
  exact FieldType.holdsEach_readInto_of_ok (congrArg Prod.snd h)

theorem wellFormed_getFields {r r' : Record} {bs rest : List UInt8}
    (h : r.getFields bs = .ok (r', rest)) : r'.WellFormed := by
  unfold getFields at h
  split at h
  · rename_i q rest' hread
    cases h
    exact wellFormed_readFields_of_ok hread
  · cases h

/-- Deserializing into a well-formed record leaves it well formed, whether the offset is
refused, a read fails midway, or all succeed and the path is stripped. -/
theorem wellFormed_deserializeInto {r : Record} (hr : r.WellFormed) (buf : List UInt8)
    (off : Nat) : (r.deserializeInto buf off).2.WellFormed := by
  unfold deserializeInto
  split
  · exact hr
  · have h := wellFormed_readFields hr (buf.drop off)
    split
    · rename_i r' rest hread
      rw [hread] at h
      exact wellFormed_strip h
    · rename_i r' e hread
      rw [hread] at h
      exact h

/-- A record deserialized from any bytes into any record is well formed. -/
theorem wellFormed_deserialize {r r' : Record} {buf : List UInt8} {off n : Nat}
    (h : r.deserialize buf off = .ok (r', n)) :
    r'.WellFormed := by
  unfold deserialize at h
  split at h
  · rename_i n' q hd
    cases h
    unfold deserializeInto at hd
    split at hd
    · cases hd
    · split at hd
      · rename_i q' rest hread
        cases hd
        exact wellFormed_strip (wellFormed_readFields_of_ok hread)
      · cases hd
  · cases h

end Record

namespace Record

theorem encode_ok_of_wellFormed {r : Record} (h : r.WellFormed) : ∃ bs, r.encode = .ok bs :=
  FieldType.encodeFields_ok_of_holds _ _ _ h

/-- Serializing a record whose bytes are `bs`: out of range, no room, or `bs` written at the
offset. -/
theorem serialize_of_encode {r : Record} {bs : List UInt8} (h : r.encode = .ok bs)
    (buf : List UInt8) (off : Nat) :
    r.serialize buf off =
      if buf.length ≤ off then .error (outOfRange off)
      else if buf.length < off + bs.length then .error (.serialization .recordNoRoom)
      else .ok (bs.length, splice buf off bs) := by
  have hlen : r.byteLength = .ok bs.length := by rw [byteLength_eq, h]; rfl
  have hy := r.put_yields
  rw [h] at hy
  unfold serialize
  by_cases hoff : buf.length ≤ off
  · rw [if_pos hoff, if_pos hoff]
  · rw [if_neg hoff, if_neg hoff, hlen]
    show (if buf.length < off + bs.length then _ else _) = _
    by_cases hroom : buf.length < off + bs.length
    · rw [if_pos hroom, if_pos hroom]
      rfl
    · rw [if_neg hroom, if_neg hroom, hy.run_ok (Nat.le_refl _)]
      rfl

/-! ### Reading a field -/

/-- The value a record gives for a field is one of its values. -/
theorem get_eq_ok {r : Record} {name : String} {v : Value} (h : r.get name = .ok v) :
    ∃ i : Nat, r.values[i]? = some v := by
  unfold get at h
  obtain ⟨i, -, h⟩ := Except.bind_eq_ok.mp h
  split at h
  · rename_i v' hv
    cases h
    exact ⟨i, hv⟩
  · cases h

/-- The value a well-formed record gives for a field is of some field's type. -/
theorem holds_get {r : Record} (hr : r.WellFormed) {name : String} {v : Value}
    (h : r.get name = .ok v) : ∃ t : FieldType, t.Holds v := by
  obtain ⟨i, hi⟩ := get_eq_ok h
  have hlt : i < r.schema.fields.length := by
    rw [hr.length_eq]
    exact (List.getElem?_eq_some_iff.mp hi).1
  obtain ⟨f, hf⟩ : ∃ f, r.schema.fields[i]? = some f := ⟨_, List.getElem?_eq_getElem hlt⟩
  exact ⟨f.type, hr.getElem? hf hi⟩

/-- The record in a field of a well-formed record is well formed. -/
theorem wellFormed_getRecord {r r' : Record} (hr : r.WellFormed) {name : String}
    (h : r.getRecord name = .ok r') : r'.WellFormed := by
  unfold getRecord at h
  obtain ⟨v, hv, h⟩ := Except.bind_eq_ok.mp h
  obtain ⟨t, ht⟩ := holds_get hr hv
  split at h
  · rename_i s vs
    cases h
    exact FieldType.Holds.sound _ t ht
  · cases h

/-! ### Records made through the operations -/

mutual

/-- The records that the operations make: new records, and from these, records changed by `set`
with a value so made, by setting the chroot, by deserializing bytes into them (whatever the
outcome), by stripping the chroot, and the record held in a field. -/
inductive Built : Record → Prop
  | new (s : Schema) : Built (Record.new s)
  | set {r r' : Record} {name : String} {v : Value} :
      Built r → Value.Built v → r.set name v = .ok r' → Built r'
  | setChroot {r : Record} (c : Option String) : Built r → Built (r.setChroot c)
  | deserializeInto {r : Record} (buf : List UInt8) (off : Nat) :
      Built r → Built (r.deserializeInto buf off).2
  | strip {r : Record} : Built r → Built r.strip
  | getRecord {r r' : Record} {name : String} : Built r → r.getRecord name = .ok r' → Built r'

/-- The values a caller can hand to `set`: any value of a primitive kind, a vector of values so
made, the value of a record so made, a field's value in such a record, and an item of a vector so
made. -/
inductive Value.Built : Value → Prop
  | int (x : Int32) : Value.Built (.int x)
  | long (x : Long) : Value.Built (.long x)
  | buffer (b : Option (List UInt8)) : Value.Built (.buffer b)
  | ustring (s : Option String) : Value.Built (.ustring s)
  | boolean (b : Bool) : Value.Built (.boolean b)
  | absent : Value.Built (.vector none)
  | vector {items : List Value} : Value.AllBuilt items → Value.Built (.vector (some items))
  | record {r : Record} : Built r → Value.Built r.toValue
  | get {r : Record} {name : String} {v : Value} : Built r → r.get name = .ok v → Value.Built v
  | item {items : List Value} {v : Value} :
      Value.Built (.vector (some items)) → v ∈ items → Value.Built v

/-- Every value of the list is made by the operations. -/
inductive Value.AllBuilt : List Value → Prop
  | nil : Value.AllBuilt []
  | cons {v : Value} {vs : List Value} : Value.Built v → Value.AllBuilt vs → Value.AllBuilt (v :: vs)

end

theorem allSound_mem : ∀ {items : List Value} {v : Value}, Value.AllSound items → v ∈ items →
    v.Sound
  | _ :: _, _, h, hv => by
    rcases List.mem_cons.mp hv with rfl | hv
    · exact h.1
    · exact allSound_mem h.2 hv

mutual

/-- Every record made through the operations is well formed. -/
theorem Built.wellFormed : {r : Record} → Built r → r.WellFormed
  | _, .new s => wellFormed_new s
  | _, .set hr hv h => wellFormed_set hr.wellFormed (Value.Built.sound hv) h
  | _, .setChroot c hr => wellFormed_setChroot hr.wellFormed c
  | _, .deserializeInto buf off hr => wellFormed_deserializeInto hr.wellFormed buf off
  | _, .strip hr => wellFormed_strip hr.wellFormed
  | _, .getRecord hr h => wellFormed_getRecord hr.wellFormed h

/-- Every value made through the operations is sound. -/
theorem Value.Built.sound : {v : Value} → Value.Built v → v.Sound
  | _, .int _ | _, .long _ | _, .buffer _ | _, .ustring _ | _, .boolean _ | _, .absent => trivial
  | _, .vector h => Value.AllBuilt.sound h
  | _, .record hr => hr.wellFormed
  | _, .get hr h => by
    obtain ⟨t, ht⟩ := holds_get hr.wellFormed h
    exact FieldType.Holds.sound _ t ht
  | _, .item hv hmem => allSound_mem (Value.Built.sound hv) hmem

theorem Value.AllBuilt.sound : {items : List Value} → Value.AllBuilt items → Value.AllSound items
  | _, .nil => trivial
  | _, .cons hv hvs => ⟨Value.Built.sound hv, Value.AllBuilt.sound hvs⟩

end

/-! ### Serializing -/

/-- A well-formed record has a length, and serializing it fails only for an offset at or past
the end of the buffer or for a buffer too short to hold it; otherwise its bytes are written at
the offset and nothing else changes. -/
theorem serialize_of_wellFormed {r : Record} (hr : r.WellFormed) :
    ∃ bs : List UInt8, r.byteLength = .ok bs.length ∧
      ∀ (buf : List UInt8) (off : Nat), r.serialize buf off =
        if buf.length ≤ off then .error (outOfRange off)
        else if buf.length < off + bs.length then .error (.serialization .recordNoRoom)
        else .ok (bs.length, splice buf off bs) := by
  obtain ⟨bs, hbs⟩ := encode_ok_of_wellFormed hr
  exact ⟨bs, by rw [byteLength_eq, hbs]; rfl, serialize_of_encode hbs⟩

/-- The type mismatch is none of the errors of serializing a well-formed record. -/
theorem serialize_ne_mismatch {r : Record} (hr : r.WellFormed) (buf : List UInt8) (off : Nat)
    (w : Value) (u : FieldType) : r.serialize buf off ≠ .error (mismatch w u) := by
  obtain ⟨bs, -, hser⟩ := serialize_of_wellFormed hr
  rw [hser]
  split
  · exact fun h => nomatch h
  · split
    · exact fun h => nomatch h
    · exact fun h => nomatch h

/-- **Records stay well formed.** A new record of any class is well formed. On a sound value the
check of `set` decides exactly whether the value is of the field's type; `set` with a sound
value, setting the chroot, reading the fields from bytes, deserializing and stripping the chroot
all keep records well formed, reads and deserializing whether they succeed or fail midway with a
prefix of the fields replaced; reads that succeed make any record well formed, whatever it
held before; and `set` refuses a value only with an invalid argument. So every record made
through these operations is well formed, and for every well-formed record measuring succeeds and
serializing fails only at its two bounds checks: neither ever meets a type mismatch. -/
theorem wellFormed_invariant :
    (∀ s : Schema, (Record.new s).WellFormed) ∧
    (∀ (t : FieldType) (v : Value), v.Sound → (t.accepts v = true ↔ t.Holds v)) ∧
    (∀ (r r' : Record) (name : String) (v : Value), r.WellFormed → v.Sound →
      r.set name v = .ok r' → r'.WellFormed) ∧
    (∀ (r : Record) (name : String) (v : Value) (e : Error), r.set name v = .error e →
      ∃ a, e = .invalidArgument a) ∧
    (∀ (r : Record) (c : Option String), r.WellFormed → (r.setChroot c).WellFormed) ∧
    (∀ (r : Record) (bs : List UInt8), r.WellFormed → (r.readFields bs).1.WellFormed) ∧
    (∀ (r r' : Record) (bs rest : List UInt8), r.getFields bs = .ok (r', rest) → r'.WellFormed) ∧
    (∀ (r : Record) (buf : List UInt8) (off : Nat), r.WellFormed →
      (r.deserializeInto buf off).2.WellFormed) ∧
    (∀ (r r' : Record) (buf : List UInt8) (off n : Nat),
      r.deserialize buf off = .ok (r', n) → r'.WellFormed) ∧
    (∀ r : Record, r.WellFormed → r.strip.WellFormed) ∧
    (∀ r : Record, Built r → r.WellFormed) ∧
    (∀ r : Record, r.WellFormed → ∃ bs : List UInt8, r.byteLength = .ok bs.length ∧
      ∀ (buf : List UInt8) (off : Nat), r.serialize buf off =
        if buf.length ≤ off then .error (outOfRange off)
        else if buf.length < off + bs.length then .error (.serialization .recordNoRoom)
        else .ok (bs.length, splice buf off bs)) ∧
    (∀ r : Record, Built r → (∀ e, r.byteLength ≠ .error e) ∧
      ∀ (buf : List UInt8) (off : Nat) (w : Value) (u : FieldType),
        r.serialize buf off ≠ .error (mismatch w u)) := by
  refine ⟨wellFormed_new, fun t v hv => FieldType.accepts_iff v hv t,
    fun _ _ _ _ hr hv h => wellFormed_set hr hv h, fun _ _ _ _ h => set_error h,
    fun _ c hr => wellFormed_setChroot hr c, fun _ bs hr => wellFormed_readFields hr bs,
    fun _ _ _ _ h => wellFormed_getFields h,
    fun _ buf off hr => wellFormed_deserializeInto hr buf off,
    fun _ _ _ _ _ h => wellFormed_deserialize h, fun _ hr => wellFormed_strip hr,
    fun _ hr => hr.wellFormed, fun _ hr => serialize_of_wellFormed hr, fun r hr => ?_⟩
  obtain ⟨bs, hlen, -⟩ := serialize_of_wellFormed hr.wellFormed
  exact ⟨fun e he => (nomatch hlen.symm.trans he), serialize_ne_mismatch hr.wellFormed⟩

end Record

end Ensemble
