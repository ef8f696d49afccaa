import Ensemble.Proofs.FieldBounds
import Ensemble.Record.Basic

/-! # Records on the wire

A record is written as its fields in the order of its class, under its chroot: the `path` field
and the string items of the watch lists get the chroot in front, and a record held in a field
goes under its own chroot. `Record.encode` is the byte list this gives:

* the writer appends exactly it (`put_yields`) and the measured length is its length
  (`byteLength_eq`);
* a list of records written one after another appends the concatenation of their bytes
  (`forM_put_yields`), and the summed lengths are the length of that concatenation
  (`foldlM_byteLength`).

Read back, a record holds its values as the wire carries them (`Record.sentValues`): the values
as they go out (`Record.outgoing`), each record inside them under its own chroot
(`sentValues_eq`). A record without chroot whose values hold none either reads back its own
values (`sentValues_of_plain`). Reading into a record of the same class gives those values
(`getFields_encode`), and deserializing where the bytes start counts
them (`deserialize_encode`). The `2 ^ 31` bound that reading needs on each length the wire
carries follows from the same bound on all the bytes when the class is solid (`sent_bounded`).
A length of exactly `2 ^ 31` is written as the prefix `-2 ^ 31`, and reading stops at the first
field that holds one (`get_buffer_wrapped`, `get_ustring_wrapped`, `Record.deserialize_error`).
-/

namespace Ensemble

theorem FieldType.AdmitsEach.length_eq :
    ∀ {fs : List Field} {vs : List Value}, FieldType.AdmitsEach fs vs → vs.length = fs.length
  | [], [], _ => rfl
  | _ :: _, _ :: _, h => congrArg (· + 1) (FieldType.AdmitsEach.length_eq h.2)
  | [], _ :: _, h => h.elim
  | _ :: _, [], h => h.elim

/-! ### Values as the wire carries them -/

/-- Without a chroot, the values of a record's fields go out as each value does. -/
theorem Value.sentFields_none :
    (fs : List Field) → (vs : List Value) → vs.length ≤ fs.length →
      Value.sentFields none fs vs = vs.map Value.sent
  | _, [], _ => by cases ‹List Field› <;> rfl
  | [], _ :: _, h => absurd h (by simp)
  | _ :: fs, v :: vs, h => by
    show v.sent :: Value.sentFields none fs vs = v.sent :: vs.map Value.sent
    rw [Value.sentFields_none fs vs (by simpa using h)]

/-- Under a chroot, the items of a watch list go out as their rewritten copies do. -/
theorem Value.sentItems_some (root : String) (items : List Value) :
    Value.sentItems (some root) items = Value.sentItems none (items.map (Record.watchItem root)) := by
  induction items with
  | nil => rfl
  | cons v vs hrest =>
    rw [List.map_cons]
    -- a present string takes the chroot; any other item goes as it is
    cases v with
    | ustring s =>
      cases s with
      | some p =>
        show _ :: _ = (Value.ustring (some (prependChroot root p))).sent :: _
        rw [hrest]
        rfl
      | none => exact congrArg (_ :: ·) hrest
    | _ => exact congrArg (_ :: ·) hrest

/-- Under a chroot, the values of a record's fields go out as their rewritten copies do. -/
theorem Value.sentFields_some (root : String) :
    (fs : List Field) → (vs : List Value) →
      Value.sentFields (some root) fs vs
        = (List.zipWith (fun f v => Record.outgoingValue root f.name v) fs vs).map Value.sent
  | [], vs => by cases vs <;> rfl
  | _ :: _, [] => rfl
  | f :: fs, v :: vs => by
    rw [List.zipWith_cons_cons, List.map_cons, ← Value.sentFields_some root fs vs]
    -- only a present string and a present vector are rewritten
    cases v with
    | ustring s =>
      cases s with
      | some p =>
        by_cases hn : f.name = pathField <;> simp [Value.sentFields, Record.outgoingValue, hn, Value.sent]
      | none => rfl
    | vector items =>
      cases items with
      | some items =>
        by_cases hw : f.name ∈ watchFields <;>
          simp [Value.sentFields, Record.outgoingValue, hw, Value.sent, Value.sentItems_some]
      | none => rfl
    | _ => rfl

/-- Values that hold no chroot are their own wire form. -/
theorem Value.map_sent_of_plain {fs : List Field} {vs : List Value}
    (ha : FieldType.AdmitsEach fs vs) (hp : Value.AllPlain vs) : vs.map Value.sent = vs := by
  rw [← Value.sentFields_none fs vs (Nat.le_of_eq ha.length_eq)]
  exact Value.sentFields_of_plain fs vs ha hp

/-! ### Bytes under a chroot -/

/-- Without chroot, a vector's items are written one after another as they are. -/
theorem FieldType.encodeItems_none_cons (e : FieldType) (v : Value) (vs : List Value) :
    e.encodeItems none (v :: vs) = (do
      let b ← e.encode v
      let rest ← e.encodeItems none vs
      pure (b ++ rest)) :=
  rfl

/-- Without chroot, a record's values are written one after another as they are. -/
theorem FieldType.encodeFields_none_cons (f : Field) (fs : List Field) (v : Value)
    (vs : List Value) :
    FieldType.encodeFields none (f :: fs) (v :: vs) = (do
      let b ← f.type.encode v
      let rest ← FieldType.encodeFields none fs vs
      pure (b ++ rest)) :=
  rfl

/-- Under a chroot, the items of a watch list are written as their rewritten copies are without
one. -/
theorem FieldType.encodeItems_some (e : FieldType) (root : String) (items : List Value) :
    e.encodeItems (some root) items = e.encodeItems none (items.map (Record.watchItem root)) := by
  induction items with
  | nil => rfl
  | cons v vs ih =>
    rw [List.map_cons, FieldType.encodeItems_none_cons, ← ih]
    -- a present string takes the chroot; any other item goes as it is
    cases v with
    | ustring s =>
      cases s with
      | some p => rfl
      | none => rfl
    | _ => rfl

/-- Under a chroot, the values of a record's fields are written as their rewritten copies are
without one. -/
theorem FieldType.encodeFields_some (root : String) :
    (fs : List Field) → (vs : List Value) →
      FieldType.encodeFields (some root) fs vs = FieldType.encodeFields none fs
        (List.zipWith (fun f v => Record.outgoingValue root f.name v) fs vs)
  | [], vs => by cases vs <;> rfl
  | _ :: _, [] => rfl
  | f :: fs, v :: vs => by
    rw [List.zipWith_cons_cons, FieldType.encodeFields_none_cons,
      ← FieldType.encodeFields_some root fs vs]
    -- only a present string and a present vector are rewritten
    cases v with
    | ustring s =>
      cases s with
      | some p =>
        by_cases hn : f.name = pathField <;>
          simp [FieldType.encodeFields, Record.outgoingValue, hn, FieldType.encode]
      | none => rfl
    | vector items =>
      cases items with
      | some items =>
        obtain ⟨name, t⟩ := f
        by_cases hw : name ∈ watchFields <;> cases t <;>
          simp [FieldType.encodeFields, Record.outgoingValue, hw, FieldType.encode,
            FieldType.encodeItems_some, Field.name, Field.type]
      | none => rfl
    | _ => rfl

/-- Reading a record's fields reads the first field, then the others from what it leaves. -/
theorem FieldType.getFields_cons_ok {n : String} {t : FieldType} {fs : List Field}
    {bs rest : List UInt8} {v : Value} (h : t.get bs = .ok (v, rest)) :
    FieldType.getFields (.mk n t :: fs) bs
      = (FieldType.getFields fs >>= fun vs => pure (v :: vs)) rest :=
  Reader.bind_ok h

theorem FieldType.getFields_cons_error {n : String} {t : FieldType} {fs : List Field}
    {bs : List UInt8} {e : Error} (h : t.get bs = .error e) :
    FieldType.getFields (.mk n t :: fs) bs = .error e :=
  Reader.bind_error h

namespace Record

/-- The bytes of a record on the wire, under its chroot. -/
def encode (r : Record) : Except Error (List UInt8) :=
  FieldType.encodeFields r.chroot r.schema.fields r.values

/-- The values of a record as the wire carries them, which reading them back gives. -/
def sentValues (r : Record) : List Value :=
  Value.sentFields r.chroot r.schema.fields r.values

/-- The bytes of records written one after another. -/
def encodeAll (rs : List Record) : Except Error (List UInt8) :=
  List.flatten <$> rs.mapM encode

/-- The record holds one value per field of its class, each admitted by the field's type. -/
def Admitted (r : Record) : Prop :=
  FieldType.AdmitsEach r.schema.fields r.values

theorem put_yields (r : Record) : Writer.Yields r.put r.encode :=
  FieldType.putFields_yields _ _ _

theorem byteLength_eq (r : Record) : r.byteLength = List.length <$> r.encode :=
  FieldType.fieldsLength_eq _ _ _

/-- A record's values go out as its rewritten values do, each under its own chroot. -/
theorem sentValues_eq {r : Record} (hlen : r.values.length = r.schema.fields.length) :
    r.sentValues = r.outgoing.map Value.sent := by
  unfold sentValues outgoing
  cases r.chroot with
  | none => exact Value.sentFields_none _ _ (Nat.le_of_eq hlen)
  | some root => simp [Value.sentFields_some, List.map_zip_eq_zipWith, Function.curry]

/-- A record is written as its rewritten values are without chroot. -/
theorem encode_eq_outgoing (r : Record) :
    r.encode = FieldType.encodeFields none r.schema.fields r.outgoing := by
  unfold encode outgoing
  cases r.chroot with
  | none => rfl
  | some root =>
    dsimp only
    rw [FieldType.encodeFields_some]
    exact congrArg (FieldType.encodeFields none _)
      (List.map_zip_eq_zipWith (f := fun x : Field × Value => outgoingValue root x.1.name x.2)).symm

/-- A record without chroot whose values hold no chroot goes out with its own values. -/
theorem sentValues_of_plain {r : Record} (hc : r.chroot = none) (ha : r.Admitted)
    (hp : Value.AllPlain r.values) : r.sentValues = r.values := by
  unfold sentValues
  rw [hc]
  exact Value.sentFields_of_plain _ _ ha hp

theorem encodeAll_nil : encodeAll [] = .ok [] := rfl

theorem encodeAll_cons (r : Record) (rs : List Record) :
    encodeAll (r :: rs) = (r.encode >>= fun b => encodeAll rs >>= fun c => pure (b ++ c)) := by
  rw [encodeAll, encodeAll, List.mapM_cons]
  cases r.encode <;> cases rs.mapM encode <;> rfl

/-- The bytes of a cons are the head's bytes followed by the tail's. -/
theorem encodeAll_cons_ok {r : Record} {rs : List Record} {bs : List UInt8}
    (h : encodeAll (r :: rs) = .ok bs) :
    ∃ b c, r.encode = .ok b ∧ encodeAll rs = .ok c ∧ bs = b ++ c := by
  rw [encodeAll_cons] at h
  obtain ⟨b, hb, h⟩ := Except.bind_eq_ok.mp h
  obtain ⟨c, hc, h⟩ := Except.bind_eq_ok.mp h
  cases h
  exact ⟨b, c, hb, hc, rfl⟩

theorem encodeAll_singleton_ok {r : Record} {bs : List UInt8} (h : encodeAll [r] = .ok bs) :
    r.encode = .ok bs := by
  obtain ⟨b, c, hb, hc, rfl⟩ := encodeAll_cons_ok h
  rw [encodeAll_nil] at hc
  cases hc
  rw [List.append_nil]
  exact hb

/-- The bytes of two lists of records are the first list's bytes followed by the second's. -/
theorem encodeAll_append_ok {rs qs : List Record} {bs : List UInt8}
    (h : encodeAll (rs ++ qs) = .ok bs) :
    ∃ b c, encodeAll rs = .ok b ∧ encodeAll qs = .ok c ∧ bs = b ++ c := by
  induction rs generalizing bs with
  | nil => exact ⟨[], bs, rfl, h, rfl⟩
  | cons r rs ih =>
    obtain ⟨b, c, hb, hc, rfl⟩ := encodeAll_cons_ok h
    obtain ⟨c₁, c₂, hc₁, hc₂, rfl⟩ := ih hc
    refine ⟨b ++ c₁, c₂, ?_, hc₂, (List.append_assoc _ _ _).symm⟩
    rw [encodeAll_cons, hb, hc₁]
    rfl

/-- Each record of a list is written within the bytes of the list. -/
theorem encode_of_mem_encodeAll {rs : List Record} {bs : List UInt8}
    (h : encodeAll rs = .ok bs) {r : Record} (hr : r ∈ rs) :
    ∃ b, r.encode = .ok b ∧ b.length ≤ bs.length := by
  induction rs generalizing bs with
  | nil => cases hr
  | cons q rs ih =>
    obtain ⟨b, c, hb, hc, rfl⟩ := encodeAll_cons_ok h
    rw [List.length_append]
    rcases List.mem_cons.mp hr with rfl | hr
    · exact ⟨b, hb, Nat.le_add_right _ _⟩
    · obtain ⟨b', hb', hle⟩ := ih hc hr
      exact ⟨b', hb', by omega⟩

theorem forM_put_yields (rs : List Record) : Writer.Yields (rs.forM put) (encodeAll rs) :=
  Writer.yields_forM rs _ _ fun r _ => r.put_yields

/-- Summing the lengths of records from `k` on adds the length of their bytes. -/
theorem foldlM_byteLength {rs : List Record} {bs : List UInt8} (h : encodeAll rs = .ok bs)
    (k : Nat) : rs.foldlM (fun n r => (n + ·) <$> r.byteLength) k = .ok (k + bs.length) := by
  induction rs generalizing bs k with
  | nil =>
    cases h
    rfl
  | cons r rs ih =>
    obtain ⟨b, c, hb, hc, rfl⟩ := encodeAll_cons_ok h
    have hlen : r.byteLength = .ok b.length := by rw [byteLength_eq, hb]; rfl
    rw [List.foldlM_cons, hlen]
    show rs.foldlM _ (k + b.length) = _
    rw [ih hc, List.length_append, Nat.add_assoc]

/-! ### Every admitted record is written -/

theorem encode_ok {r : Record} (h : r.Admitted) : ∃ bs, r.encode = .ok bs :=
  FieldType.encodeFields_ok _ _ _ h

theorem encodeAll_ok {rs : List Record} (h : ∀ r ∈ rs, r.Admitted) :
    ∃ bs, encodeAll rs = .ok bs := by
  induction rs with
  | nil => exact ⟨[], rfl⟩
  | cons r rs ih =>
    obtain ⟨b, hb⟩ := encode_ok (h r List.mem_cons_self)
    obtain ⟨c, hc⟩ := ih fun q hq => h q (List.mem_cons_of_mem r hq)
    exact ⟨b ++ c, by rw [encodeAll_cons, hb, hc]; rfl⟩

/-! ### Reading a record back -/

/-- Reading into values that all succeed gives what reading the fields gives. -/
theorem FieldType.readInto_of_getFields :
    (fs : List Field) → (vs : List Value) → {bs rest : List UInt8} → {ws : List Value} →
      FieldType.getFields fs bs = .ok (ws, rest) → FieldType.readInto fs vs bs = (ws, .ok rest)
  | [], vs, _, _, _, h => by
    cases h
    rfl
  | .mk _ t :: fs, vs, bs, rest, ws, h => by
    -- the first field's read succeeds, and the others read from what it leaves
    cases hv : t.get bs with
    | error e =>
      rw [FieldType.getFields_cons_error hv] at h
      cases h
    | ok p =>
      obtain ⟨v, bs'⟩ := p
      rw [FieldType.getFields_cons_ok hv] at h
      cases hvs : FieldType.getFields fs bs' with
      | error e =>
        rw [Reader.bind_error hvs] at h
        cases h
      | ok q =>
        obtain ⟨ws', rest'⟩ := q
        rw [Reader.bind_ok hvs] at h
        cases h
        simp [FieldType.readInto, hv, FieldType.readInto_of_getFields fs vs.tail hvs]

/-- Reading into values fails where reading the fields fails, with the same error. -/
theorem FieldType.readInto_of_getFields_error :
    (fs : List Field) → (vs : List Value) → {bs : List UInt8} → {e : Error} →
      FieldType.getFields fs bs = .error e → (FieldType.readInto fs vs bs).2 = .error e
  | [], _, _, _, h => by cases h
  | .mk _ t :: fs, vs, bs, e, h => by
    cases hv : t.get bs with
    | error e' =>
      rw [FieldType.getFields_cons_error hv] at h
      cases h
      simp [FieldType.readInto, hv]
    | ok p =>
      obtain ⟨v, mid⟩ := p
      rw [FieldType.getFields_cons_ok hv] at h
      cases hvs : FieldType.getFields fs mid with
      | error e' =>
        rw [Reader.bind_error hvs] at h
        cases h
        simp [FieldType.readInto, hv, FieldType.readInto_of_getFields_error fs vs.tail hvs]
      | ok q =>
        rw [Reader.bind_ok hvs] at h
        cases h

/-- A record reads into itself what reading its fields gives. -/
theorem readFields_of_getFields {r : Record} {bs rest : List UInt8} {ws : List Value}
    (h : FieldType.getFields r.schema.fields bs = .ok (ws, rest)) :
    r.readFields bs = ({ r with values := ws }, .ok rest) := by
  simp [readFields, FieldType.readInto_of_getFields _ _ h]

/-- Reading a record's fields gives the values read for its class, with its class and chroot
kept, whatever values it held. -/
theorem getFields_eq (r : Record) :
    r.getFields = (fun ws => { r with values := ws }) <$> FieldType.getFields r.schema.fields := by
  funext bs
  cases h : FieldType.getFields r.schema.fields bs with
  | ok p =>
    obtain ⟨ws, rest⟩ := p
    rw [Reader.map_ok h]
    simp only [getFields, readFields_of_getFields h]
  | error e =>
    have he := FieldType.readInto_of_getFields_error r.schema.fields r.values h
    show _ = (FieldType.getFields r.schema.fields bs >>= fun p => pure (_, p.2))
    rw [h]
    simp only [getFields, readFields, he]
    rfl

/-- Deserializing reads the record's fields from the offset on, strips its path of the chroot and
counts the bytes read. -/
theorem deserialize_eq (r : Record) (buf : List UInt8) (off : Nat) :
    r.deserialize buf off =
      if buf.length ≤ off then .error (outOfRange off)
      else Reader.runCounting r.getFields (buf.drop off) >>= fun p => pure (p.1.strip, p.2) := by
  unfold deserialize deserializeInto
  by_cases hoff : buf.length ≤ off
  · simp [hoff]
  · rcases hr : r.readFields (buf.drop off) with ⟨q, e | rest⟩ <;>
      simp [hoff, Reader.runCounting, getFields, hr, bind, Except.bind, pure, Except.pure]

/-- A record of a solid class whose bytes number fewer than `2 ^ 31` carries every length on
the wire below `2 ^ 31`. -/
theorem sent_bounded {r : Record} {bs : List UInt8} (hs : r.schema.solid)
    (ha : r.Admitted) (h : r.encode = .ok bs) (hlen : bs.length < Nat.pow 2 31) :
    Value.AllBounded r.sentValues := by
  obtain ⟨⟨m, n, fs⟩, vs, c⟩ := r
  exact FieldType.boundedEach_of_encode c fs vs hs ha bs h hlen

/-- A record of the same class reads the values as the wire carries them, and keeps its own
chroot. -/
theorem getFields_encode {r q : Record} {bs : List UInt8} (hs : q.schema = r.schema)
    (ha : r.Admitted) (hb : Value.AllBounded r.sentValues) (h : r.encode = .ok bs)
    (rest : List UInt8) :
    q.getFields (bs ++ rest) = .ok ({ q with values := r.sentValues }, rest) := by
  have hread : FieldType.getFields q.schema.fields (bs ++ rest) = .ok (r.sentValues, rest) := by
    rw [hs]
    exact FieldType.getFields_encodeFields _ _ _ ha hb bs h rest
  simp only [getFields, readFields_of_getFields hread]

/-- A record takes at least the least length of its class. -/
theorem leastLength_le {r : Record} {bs : List UInt8} (ha : r.Admitted) (h : r.encode = .ok bs) :
    r.schema.leastLength ≤ bs.length := by
  obtain ⟨⟨m, n, fs⟩, vs, c⟩ := r
  exact FieldType.leastLengths_le c fs vs ha bs h

/-- Deserializing at an offset where a record's bytes start: a record of the same class reads
its values as the wire carries them, and the count is the number of those bytes. -/
theorem deserialize_encode {r q : Record} {bs rest buf : List UInt8} {off : Nat}
    (hs : q.schema = r.schema) (ha : r.Admitted)
    (hb : Value.AllBounded r.sentValues) (h : r.encode = .ok bs) (hne : 0 < bs.length)
    (hdrop : buf.drop off = bs ++ rest) :
    q.deserialize buf off = .ok ({ q with values := r.sentValues }.strip, bs.length) := by
  have hoff : off < buf.length := by
    have hl := congrArg List.length hdrop
    simp only [List.length_drop, List.length_append] at hl
    omega
  have hread : FieldType.getFields q.schema.fields (bs ++ rest) = .ok (r.sentValues, rest) := by
    rw [hs]
    exact FieldType.getFields_encodeFields _ _ _ ha hb bs h rest
  simp [deserialize, deserializeInto, if_neg (Nat.not_le.mpr hoff), hdrop,
    readFields_of_getFields hread]

end Record

/-! ### Reading stops at the first field that does not read -/

/-- Data of `2 ^ 31` bytes does not read back: its length prefix is refused. -/
theorem FieldType.get_buffer_wrapped {d : List UInt8} (h : d.length = Nat.pow 2 31)
    (rest : List UInt8) :
    FieldType.buffer.get (Writer.bufferBytes (some d) ++ rest)
      = .error (.serialization (.badLength (-2147483648))) :=
  Reader.map_error (Reader.buffer_wrapped h rest)

/-- A string of `2 ^ 31` bytes does not read back: its length prefix is refused. -/
theorem FieldType.get_ustring_wrapped {s : String} (h : s.utf8ByteSize = Nat.pow 2 31)
    (rest : List UInt8) :
    FieldType.ustring.get (Writer.bufferBytes (some (Utf8.encode s)) ++ rest)
      = .error (.serialization (.badLength (-2147483648))) :=
  Reader.map_error (Reader.ustring_wrapped h rest)

namespace Record

theorem getFields_error {r : Record} {bs : List UInt8} {e : Error}
    (h : FieldType.getFields r.schema.fields bs = .error e) : r.getFields bs = .error e := by
  rw [getFields_eq]
  exact Reader.map_error h

/-- Deserializing inside the buffer fails where reading the fields fails, with their error. -/
theorem deserialize_error {r : Record} {buf : List UInt8} {off : Nat} {e : Error}
    (hoff : off < buf.length) (h : r.getFields (buf.drop off) = .error e) :
    r.deserialize buf off = .error e := by
  rw [deserialize_eq, if_neg (Nat.not_le.mpr hoff)]
  unfold Reader.runCounting
  rw [h]
  rfl

end Record

end Ensemble
