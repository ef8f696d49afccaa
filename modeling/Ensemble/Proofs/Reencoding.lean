import Ensemble.Proofs.WellFormed

/-! # Reading then writing

Reading is the converse of writing on every input that it accepts, not only on bytes that
writing produced: a value read and written again gives the bytes it was read from, except that a
boolean is read as `true` from the byte `1` alone and is written as `1` or `0` (`boolByte`).
`Value.boolMask` marks the bytes of a value's form that hold a boolean, and `writeBackBools`
makes each marked byte `0` or `1`.

* `Reader.Consumes R r`: whenever `r` succeeds, the bytes it took are related by `R` to the value
  it read. Each primitive takes exactly its own form (a length prefix is the form of `-1` or of
  the length, a string's bytes are its UTF-8 form), and the relation is carried through `bind`,
  `map` and `times`;
* `FieldType.get_rereads`: a value read as a type is admitted by it, and its encoding is the
  bytes it was read from with the boolean bytes made `0` or `1` (`FieldType.Rereads`);
* `codec_reencode`: the same at an offset into a buffer, for `write` after `read` and for
  `serialize` after `deserialize` without chroot; written back in place, a value leaves the
  buffer as it was exactly when each of its boolean bytes is `0` or `1`.
-/

namespace Ensemble

/-- A byte read as a boolean and written back: `1` stays, any other byte becomes `0`. -/
def boolByte (x : UInt8) : UInt8 :=
  if x = 1 then 1 else 0

namespace Reader

/-- Whenever `r` succeeds, the bytes it took from the front of its input are related by `R` to
the value it read. -/
def Consumes {α : Type} (R : α → List UInt8 → Prop) (r : Reader α) : Prop :=
  ∀ bs a rest, r bs = .ok (a, rest) → ∃ pre, bs = pre ++ rest ∧ R a pre

section

variable {α β : Type}

theorem consumes_pure {R : α → List UInt8 → Prop} {a : α} (h : R a []) :
    Consumes R (pure a : Reader α) := by
  intro bs b rest hr
  cases hr
  exact ⟨[], rfl, h⟩

theorem consumes_throw (R : α → List UInt8 → Prop) (e : Error) :
    Consumes R (throw e : Reader α) := by
  intro bs a rest h
  cases h

/-- The continuation's bytes follow the first reader's: its relation sees them appended. -/
theorem Consumes.bind {R : α → List UInt8 → Prop} {S : β → List UInt8 → Prop} {x : Reader α}
    {f : α → Reader β} (hx : Consumes R x)
    (hf : ∀ a p, R a p → Consumes (fun b q => S b (p ++ q)) (f a)) : Consumes S (x >>= f) := by
  intro bs b rest h
  obtain ⟨a, mid, h₁, h₂⟩ := bind_eq_ok h
  obtain ⟨p, rfl, hp⟩ := hx bs a mid h₁
  obtain ⟨q, rfl, hq⟩ := hf a p hp mid b rest h₂
  exact ⟨p ++ q, (List.append_assoc p q rest).symm, hq⟩

theorem Consumes.map {R : α → List UInt8 → Prop} {S : β → List UInt8 → Prop} {x : Reader α}
    (hx : Consumes R x) {f : α → β} (hf : ∀ a p, R a p → S (f a) p) : Consumes S (f <$> x) := by
  intro bs b rest h
  obtain ⟨a, ha, rfl⟩ := map_eq_ok h
  obtain ⟨p, rfl, hp⟩ := hx bs a rest ha
  exact ⟨p, rfl, hf a p hp⟩

/-- Reading `n` values one after another: `S` holds of the values and the bytes they took, when
it holds of none and is kept by putting one more value and its bytes in front. -/
theorem consumes_times {R : α → List UInt8 → Prop} {r : Reader α} (hr : Consumes R r)
    {S : List α → List UInt8 → Prop} (hnil : S [] [])
    (hcons : ∀ a p as q, R a p → S as q → S (a :: as) (p ++ q)) (n : Nat) :
    Consumes (fun as pre => as.length = n ∧ S as pre) (times r n) := by
  -- the loop keeps the values read so far, reversed, in front of the rest of its answer
  suffices ∀ n acc bs res rest, times.go r n acc bs = .ok (res, rest) →
      ∃ as pre, res = acc.reverse ++ as ∧ bs = pre ++ rest ∧ as.length = n ∧ S as pre by
    intro bs res rest h
    obtain ⟨as, pre, rfl, hbs, hlen, hs⟩ := this n [] bs res rest h
    exact ⟨pre, hbs, hlen, hs⟩
  intro n
  induction n with
  | zero =>
    intro acc bs res rest h
    cases h
    exact ⟨[], [], by simp, rfl, rfl, hnil⟩
  | succ n ih =>
    intro acc bs res rest h
    unfold times.go at h
    split at h
    · rename_i a mid hrbs
      obtain ⟨p, rfl, hp⟩ := hr bs a mid hrbs
      obtain ⟨as, q, rfl, rfl, hlen, hs⟩ := ih _ _ _ _ h
      exact ⟨a :: as, p ++ q, by simp, by simp, by simp [hlen], hcons a p as q hp hs⟩
    · cases h

/-- Counting what a reader took: the bytes it counts are the front of its input. -/
theorem Consumes.runCounting {R : α → List UInt8 → Prop} {r : Reader α} (hr : Consumes R r)
    {bs : List UInt8} {a : α} {n : Nat} (h : Reader.runCounting r bs = .ok (a, n)) :
    n ≤ bs.length ∧ R a (bs.take n) := by
  obtain ⟨rest, h₁, rfl⟩ := runCounting_eq_ok h
  obtain ⟨pre, rfl, hp⟩ := hr _ a rest h₁
  have hn : (pre ++ rest).length - rest.length = pre.length := by simp
  rw [hn, List.take_left' rfl]
  exact ⟨by simp, hp⟩

end

/-! ### Each primitive takes exactly its own form -/

theorem consumes_bytes (n : Nat) : Consumes (fun a pre => pre = a ∧ a.length = n) (bytes n) := by
  intro bs a rest h
  unfold bytes at h
  dsimp only at h
  split at h
  · rename_i hlen
    cases h
    exact ⟨bs.take n, (List.take_append_drop n bs).symm, rfl, hlen⟩
  · cases h

theorem consumes_int : Consumes (fun x pre => pre = BigEndian.ofInt32 x) int :=
  (consumes_bytes 4).bind fun _ p ⟨hp, hlen⟩ =>
    consumes_pure (by rw [List.append_nil, hp, BigEndian.ofInt32_toInt32 hlen])

theorem consumes_long : Consumes (fun l pre => pre = l.bytes) long := by
  intro bs l rest h
  unfold long at h
  split at h
  · cases h
    exact ⟨_, rfl, rfl⟩
  · cases h

theorem consumes_bool :
    Consumes (fun b pre => ∃ x, pre = [x] ∧ (if b then 1 else 0 : UInt8) = boolByte x) bool := by
  refine (consumes_bytes 1).bind fun a p ⟨hp, hlen⟩ => consumes_pure ?_
  match a, hlen with
  | [x], _ =>
    refine ⟨x, by simp [hp], ?_⟩
    by_cases hx : x = 1 <;> simp [boolByte, hx]

/-- A length prefix is the form of `-1` when absent and of the length when present. -/
theorem consumes_length :
    Consumes (fun o pre => pre = BigEndian.ofInt32 ((o.map Int32.ofNat).getD (-1))) length := by
  unfold length
  refine consumes_int.bind fun x p hp => ?_
  split
  · rename_i hx
    exact consumes_pure (by simp [hp, hx])
  · split
    · exact consumes_throw _ _
    · rename_i hneg
      refine consumes_pure ?_
      simp only [List.append_nil, Option.map_some, Option.getD_some, hp]
      -- a length that is not negative is the length it is read as
      exact congrArg BigEndian.ofInt32 (Int32.ofNat_toNatClampNeg x (Int32.not_lt.mp hneg)).symm

theorem consumes_buffer : Consumes (fun b pre => pre = Writer.bufferBytes b) buffer := by
  unfold buffer
  refine consumes_length.bind fun o p hp => ?_
  cases o with
  | none => exact consumes_pure (by simp [hp, Writer.bufferBytes])
  | some n =>
    exact (consumes_bytes n).map fun a q ⟨hq, hlen⟩ => by
      simp [hp, hq, hlen, Writer.bufferBytes]

theorem consumes_ustring :
    Consumes (fun s pre => pre = Writer.bufferBytes (s.map Utf8.encode)) ustring := by
  unfold ustring
  refine consumes_buffer.bind fun b p hp => ?_
  cases b with
  | none => exact consumes_pure (by simp [hp])
  | some bs =>
    dsimp only
    cases hd : Utf8.decode bs with
    | ok s => exact consumes_pure (by simp [hp, Utf8.encode_of_decode hd])
    | error e => exact consumes_throw _ _

end Reader

/-! ### The boolean bytes of a value's form -/

mutual

/-- Which bytes of a value's form hold a boolean, one entry per byte. -/
def Value.boolMask : Value → List Bool
  | .int _ => List.replicate 4 false
  | .long _ => List.replicate 8 false
  | .buffer b => List.replicate (Writer.bufferBytes b).length false
  | .ustring s => List.replicate (Writer.bufferBytes (s.map Utf8.encode)).length false
  | .boolean _ => [true]
  | .vector none => List.replicate 4 false
  | .vector (some items) => List.replicate 4 false ++ Value.boolMaskList items
  | .record _ vs _ => Value.boolMaskList vs

/-- The boolean bytes of values written one after another. -/
def Value.boolMaskList : List Value → List Bool
  | [] => []
  | v :: vs => v.boolMask ++ Value.boolMaskList vs

end

/-- The bytes `bs` with each byte that `mask` marks read as a boolean and written back. -/
def writeBackBools (mask : List Bool) (bs : List UInt8) : List UInt8 :=
  List.zipWith (fun m x => if m then boolByte x else x) mask bs

theorem length_writeBackBools {mask : List Bool} {bs : List UInt8} (h : mask.length = bs.length) :
    (writeBackBools mask bs).length = bs.length := by
  simp [writeBackBools, h]

theorem writeBackBools_append {m₁ m₂ : List Bool} {b₁ b₂ : List UInt8}
    (h : m₁.length = b₁.length) :
    writeBackBools (m₁ ++ m₂) (b₁ ++ b₂) = writeBackBools m₁ b₁ ++ writeBackBools m₂ b₂ :=
  List.zipWith_append h

/-- Bytes that hold no boolean are written back as they are. -/
theorem writeBackBools_replicate_false (bs : List UInt8) :
    writeBackBools (List.replicate bs.length false) bs = bs := by
  induction bs with
  | nil => rfl
  | cons x bs ih =>
    simp only [List.length_cons, List.replicate_succ, writeBackBools, List.zipWith_cons_cons]
    exact congrArg (x :: ·) ih

/-- Writing back changes nothing exactly when every boolean byte is `0` or `1`. -/
theorem writeBackBools_eq_self_iff {mask : List Bool} {bs : List UInt8}
    (h : mask.length = bs.length) :
    writeBackBools mask bs = bs ↔
      ∀ i : Nat, mask[i]? = some true → bs[i]? = some 0 ∨ bs[i]? = some 1 := by
  induction mask generalizing bs with
  | nil =>
    cases bs with
    | nil => simp [writeBackBools]
    | cons _ _ => cases h
  | cons m mask ih =>
    cases bs with
    | nil => cases h
    | cons x bs =>
      have hx : (if m then boolByte x else x) = x ↔ (m = true → x = 0 ∨ x = 1) := by
        cases m with
        | false => simp
        | true =>
          by_cases h1 : x = 1
          · simp [boolByte, h1]
          · simp [boolByte, h1, eq_comm]
      simp only [writeBackBools, List.zipWith_cons_cons, List.cons.injEq]
      rw [← writeBackBools, ih (by simpa using h), hx]
      constructor
      · rintro ⟨hm, hrest⟩ i hi
        cases i with
        | zero => simpa using hm (by simpa using hi)
        | succ i => exact hrest i (by simpa using hi)
      · intro hall
        exact ⟨fun hm => by simpa using hall 0 (by simp [hm]),
          fun i hi => by simpa using hall (i + 1) (by simpa using hi)⟩

/-! ### A value read is written back as its bytes -/

/-- `v` was read as type `t` from the bytes `pre`: `t` admits it, its mask has one entry per
byte, and writing it gives `pre` back with each boolean byte made `0` or `1`. -/
def FieldType.Rereads (t : FieldType) (v : Value) (pre : List UInt8) : Prop :=
  t.Admits v ∧ v.boolMask.length = pre.length ∧ t.encode v = .ok (writeBackBools v.boolMask pre)

/-- The items of a vector of element type `e`, read from `pre`. -/
def FieldType.RereadsItems (e : FieldType) (items : List Value) (pre : List UInt8) : Prop :=
  e.AdmitsAll items ∧ (Value.boolMaskList items).length = pre.length ∧
    e.encodeItems none items = .ok (writeBackBools (Value.boolMaskList items) pre)

/-- A record's values, read field by field from `pre`. -/
def FieldType.RereadsEach (fs : List Field) (vs : List Value) (pre : List UInt8) : Prop :=
  FieldType.AdmitsEach fs vs ∧ (Value.boolMaskList vs).length = pre.length ∧
    FieldType.encodeFields none fs vs = .ok (writeBackBools (Value.boolMaskList vs) pre)

/-- A value whose form holds no boolean is written back as the bytes it was read from. -/
theorem FieldType.rereads_of_encode {t : FieldType} {v : Value} {pre : List UInt8}
    (ha : t.Admits v) (hm : v.boolMask = List.replicate pre.length false)
    (he : t.encode v = .ok pre) : t.Rereads v pre := by
  refine ⟨ha, by simp [hm], ?_⟩
  rw [he, hm, writeBackBools_replicate_false]

theorem FieldType.rereadsItems_nil (e : FieldType) : e.RereadsItems [] [] :=
  ⟨trivial, rfl, rfl⟩

theorem FieldType.RereadsItems.cons {e : FieldType} {v : Value} {items : List Value}
    {p q : List UInt8} (hv : e.Rereads v p) (hs : e.RereadsItems items q) :
    e.RereadsItems (v :: items) (p ++ q) := by
  obtain ⟨ha, hl, he⟩ := hv
  obtain ⟨has, hls, hes⟩ := hs
  refine ⟨⟨ha, has⟩, by simp [Value.boolMaskList, hl, hls], ?_⟩
  rw [Value.boolMaskList, writeBackBools_append hl, FieldType.encodeItems_none_cons, he, hes]
  rfl

theorem FieldType.rereadsEach_nil : FieldType.RereadsEach [] [] [] :=
  ⟨trivial, rfl, rfl⟩

theorem FieldType.RereadsEach.cons {f : Field} {fs : List Field} {v : Value} {vs : List Value}
    {p q : List UInt8} (hv : f.type.Rereads v p) (hs : FieldType.RereadsEach fs vs q) :
    FieldType.RereadsEach (f :: fs) (v :: vs) (p ++ q) := by
  obtain ⟨ha, hl, he⟩ := hv
  obtain ⟨has, hls, hes⟩ := hs
  refine ⟨⟨ha, has⟩, by simp [Value.boolMaskList, hl, hls], ?_⟩
  rw [Value.boolMaskList, writeBackBools_append hl, FieldType.encodeFields_none_cons, he, hes]
  rfl

/-- A present vector is read as its count's form followed by its items. -/
theorem FieldType.RereadsItems.vector {e : FieldType} {items : List Value} {q : List UInt8}
    (h : e.RereadsItems items q) :
    (FieldType.vector e).Rereads (.vector (some items))
      (BigEndian.ofInt32 (Int32.ofNat items.length) ++ q) := by
  obtain ⟨ha, hl, he⟩ := h
  have h4 : List.replicate 4 false =
      List.replicate (BigEndian.ofInt32 (Int32.ofNat items.length)).length false := by simp
  refine ⟨ha, by simp [Value.boolMask, hl]; omega, ?_⟩
  rw [Value.boolMask, h4, writeBackBools_append (by simp), writeBackBools_replicate_false,
    FieldType.encode, he]
  rfl

open Reader

mutual

/-- A value read as a type is admitted by it, and writing it gives back the bytes it was read
from, each boolean byte made `0` or `1`. -/
theorem FieldType.get_rereads : (t : FieldType) → Consumes t.Rereads t.get
  | .int => consumes_int.map fun _ p hp =>
    FieldType.rereads_of_encode trivial (by simp [hp, Value.boolMask]) (by rw [hp]; rfl)
  | .long => consumes_long.map fun l p hp =>
    FieldType.rereads_of_encode trivial (by simp [hp, Value.boolMask, l.length_bytes]) (by rw [hp]; rfl)
  | .buffer => consumes_buffer.map fun _ p hp =>
    FieldType.rereads_of_encode trivial (by rw [hp]; rfl) (by rw [hp]; rfl)
  | .ustring => consumes_ustring.map fun _ p hp =>
    FieldType.rereads_of_encode trivial (by rw [hp]; rfl) (by rw [hp]; rfl)
  | .boolean => consumes_bool.map fun _ p ⟨x, hp, hb⟩ =>
    ⟨trivial, by simp [hp, Value.boolMask], by
      simp [hp, Value.boolMask, writeBackBools, FieldType.encode, hb]⟩
  | .vector e => by
    rw [FieldType.get]
    refine consumes_length.bind fun o p hp => ?_
    cases o with
    | none =>
      refine consumes_pure ?_
      rw [List.append_nil, hp]
      exact FieldType.rereads_of_encode trivial rfl rfl
    | some n =>
      refine (consumes_times (FieldType.get_rereads e) (FieldType.rereadsItems_nil e)
        (fun _ _ _ _ => FieldType.RereadsItems.cons) n).map fun items q ⟨hlen, hq⟩ => ?_
      rw [hp, Option.map_some, Option.getD_some, ← hlen]
      exact hq.vector
  | .record (.mk _ _ fs) => (FieldType.getFields_rereads fs).map fun _ _ h =>
    ⟨⟨rfl, h.1⟩, h.2.1, h.2.2⟩

/-- The values read for a record's fields are one per field, and writing them gives back the
bytes they were read from, each boolean byte made `0` or `1`. -/
theorem FieldType.getFields_rereads :
    (fs : List Field) → Consumes (FieldType.RereadsEach fs) (FieldType.getFields fs)
  | [] => consumes_pure FieldType.rereadsEach_nil
  | .mk _ t :: fs =>
    (FieldType.get_rereads t).bind fun _ p hv =>
      (FieldType.getFields_rereads fs).bind fun _ q hvs =>
        consumes_pure (by rw [List.append_nil]; exact FieldType.RereadsEach.cons hv hvs)

end

/-! ### Writing back what was read -/

theorem splice_eq_self_iff {buf bs : List UInt8} {off : Nat} :
    splice buf off bs = buf ↔ bs = (buf.drop off).take bs.length := by
  have hsplit : buf = buf.take off ++ (buf.drop off).take bs.length ++
      buf.drop (off + bs.length) := by
    rw [List.append_assoc, ← List.drop_drop, List.take_append_drop, List.take_append_drop]
  rw [splice]
  constructor
  · intro heq
    exact List.append_cancel_left (List.append_cancel_right (heq.trans hsplit))
  · intro hbs
    rw [← hbs] at hsplit
    exact hsplit.symm

/-- The bytes read from `buf` at `off`, written back in place, leave `buf` as it was exactly when
every boolean byte among them is `0` or `1`. -/
theorem splice_writeBackBools_eq_self_iff {mask : List Bool} {buf : List UInt8} {off n : Nat}
    (hm : mask.length = n) (h : off + n ≤ buf.length) :
    splice buf off (writeBackBools mask ((buf.drop off).take n)) = buf ↔
      ∀ i : Nat, mask[i]? = some true → buf[off + i]? = some 0 ∨ buf[off + i]? = some 1 := by
  have hlen : ((buf.drop off).take n).length = n := by simp; omega
  have hw : (writeBackBools mask ((buf.drop off).take n)).length = n := by
    rw [length_writeBackBools (hm.trans hlen.symm), hlen]
  -- a marked byte lies among the `n` read, so it is the byte of `buf` at `off` on
  have hget : ∀ i, mask[i]? = some true → ((buf.drop off).take n)[i]? = buf[off + i]? := by
    intro i hi
    obtain ⟨hi', -⟩ := List.getElem?_eq_some_iff.mp hi
    rw [List.getElem?_take_of_lt (by omega), List.getElem?_drop]
  rw [splice_eq_self_iff, hw, writeBackBools_eq_self_iff (hm.trans hlen.symm)]
  constructor
  · intro hall i hi
    rw [← hget i hi]
    exact hall i hi
  · intro hall i hi
    rw [hget i hi]
    exact hall i hi

/-- A value read at an offset was read from the bytes it counts, which lie inside the buffer. -/
theorem FieldType.read_rereads {t : FieldType} {buf : List UInt8} {off : Nat} {v : Value} {n : Nat}
    (h : t.read buf off = .ok (v, n)) :
    off + n ≤ buf.length ∧ t.Rereads v ((buf.drop off).take n) := by
  unfold FieldType.read at h
  split at h
  · cases h
  · obtain ⟨hn, hr⟩ := (FieldType.get_rereads t).runCounting h
    rw [List.length_drop] at hn
    exact ⟨by omega, hr⟩

theorem FieldType.Rereads.byteLength {t : FieldType} {v : Value} {pre : List UInt8}
    (h : t.Rereads v pre) : t.byteLength v = .ok pre.length := by
  rw [t.byteLength_eq, h.2.2]
  exact congrArg Except.ok (length_writeBackBools h.2.1)

namespace Record

theorem strip_of_chroot_none {r : Record} (hc : r.chroot = none) : r.strip = r := by
  unfold strip
  rw [hc]

/-- Reading a record's fields keeps its class and chroot. -/
theorem getFields_rereads (r : Record) :
    Consumes (fun q pre => q = { r with values := q.values } ∧
      FieldType.RereadsEach r.schema.fields q.values pre) r.getFields := by
  rw [getFields_eq]
  exact (FieldType.getFields_rereads _).map fun _ _ h => ⟨rfl, h⟩

/-- A record deserialized without chroot keeps its class and read its values from the bytes it
counts, which lie inside the buffer past the offset. -/
theorem deserialize_rereads {r r' : Record} {buf : List UInt8} {off n : Nat}
    (hc : r.chroot = none) (h : r.deserialize buf off = .ok (r', n)) :
    r' = { r with values := r'.values } ∧ off < buf.length ∧ off + n ≤ buf.length ∧
      FieldType.RereadsEach r.schema.fields r'.values ((buf.drop off).take n) := by
  rw [deserialize_eq] at h
  split at h
  · cases h
  · rename_i hoff
    obtain ⟨⟨q, m⟩, hrun, h⟩ := Except.bind_eq_ok.mp h
    cases h
    obtain ⟨hn, hq, hr⟩ := r.getFields_rereads.runCounting hrun
    -- the record read has the chroot of `r`, so stripping it changes nothing
    have hqc : q.chroot = none := by rw [hq]; exact hc
    rw [List.length_drop] at hn
    rw [strip_of_chroot_none hqc]
    exact ⟨hq, by omega, by omega, hr⟩

end Record

/-! ### Reading then writing -/

/-- **Reading then writing.** A value read as a type at an offset is admitted by the type and
measured as the bytes it was read from; written anywhere, it fills as many bytes with the bytes
read, each boolean byte made `0` or `1`, so that written back in place it leaves the buffer as it
was exactly when every boolean byte it was read from is `0` or `1`. A record deserialized without
chroot is written back the same way by `serialize`. -/
theorem codec_reencode (buf : List UInt8) (off : Nat) :
    (∀ (t : FieldType) (v : Value) (n : Nat), t.read buf off = .ok (v, n) →
      t.Admits v ∧ t.byteLength v = .ok n ∧
        (∀ (buf' : List UInt8) (off' : Nat), off' + n ≤ buf'.length →
          t.write v buf' off' =
            .ok (n, splice buf' off' (writeBackBools v.boolMask ((buf.drop off).take n)))) ∧
        (t.write v buf off = .ok (n, buf) ↔
          ∀ i : Nat, v.boolMask[i]? = some true →
            buf[off + i]? = some 0 ∨ buf[off + i]? = some 1)) ∧
    (∀ (r r' : Record) (n : Nat), r.chroot = none → r.deserialize buf off = .ok (r', n) →
      r' = { r with values := r'.values } ∧ r'.Admitted ∧ r'.byteLength = .ok n ∧
        (∀ (buf' : List UInt8) (off' : Nat), off' < buf'.length → off' + n ≤ buf'.length →
          r'.serialize buf' off' =
            .ok (n, splice buf' off'
              (writeBackBools r'.toValue.boolMask ((buf.drop off).take n)))) ∧
        (r'.serialize buf off = .ok (n, buf) ↔
          ∀ i : Nat, r'.toValue.boolMask[i]? = some true →
            buf[off + i]? = some 0 ∨ buf[off + i]? = some 1)) := by
  refine ⟨fun t v n h => ?_, fun r r' n hc h => ?_⟩
  · obtain ⟨hroom, ha, hm, he⟩ := FieldType.read_rereads h
    have hn : ((buf.drop off).take n).length = n := by simp; omega
    have hlen := length_writeBackBools hm
    have hw : ∀ (buf' : List UInt8) (off' : Nat), off' + n ≤ buf'.length →
        t.write v buf' off' =
          .ok (n, splice buf' off' (writeBackBools v.boolMask ((buf.drop off).take n))) := by
      intro buf' off' h'
      rw [FieldType.write_of_encode he (by rw [hlen, hn]; exact h'), hlen, hn]
    refine ⟨ha, hn ▸ FieldType.Rereads.byteLength ⟨ha, hm, he⟩, hw, ?_⟩
    rw [hw buf off hroom, Except.ok.injEq, Prod.mk.injEq, and_iff_right rfl]
    exact splice_writeBackBools_eq_self_iff (hm.trans hn) hroom
  · obtain ⟨hr', hoff, hroom, ha, hm, he⟩ := Record.deserialize_rereads hc h
    have hs : r'.schema = r.schema := by rw [hr']
    have hc' : r'.chroot = none := by rw [hr']; exact hc
    have hn : ((buf.drop off).take n).length = n := by simp; omega
    have hlen : (writeBackBools r'.toValue.boolMask ((buf.drop off).take n)).length = n :=
      (length_writeBackBools hm).trans hn
    -- without chroot the record is written with the values it read
    have henc : r'.encode = .ok (writeBackBools r'.toValue.boolMask ((buf.drop off).take n)) := by
      have hmask : r'.toValue.boolMask = Value.boolMaskList r'.values := rfl
      rw [Record.encode, hc', hs, he, hmask]
    have hw : ∀ (buf' : List UInt8) (off' : Nat), off' < buf'.length → off' + n ≤ buf'.length →
        r'.serialize buf' off' =
          .ok (n, splice buf' off' (writeBackBools r'.toValue.boolMask ((buf.drop off).take n))) := by
      intro buf' off' h₁ h₂
      rw [Record.serialize_of_encode henc, if_neg (by omega), if_neg (by rw [hlen]; omega), hlen]
    refine ⟨hr', by rw [Record.Admitted, hs]; exact ha, ?_, hw, ?_⟩
    · rw [Record.byteLength_eq, henc]
      exact congrArg Except.ok hlen
    · rw [hw buf off hoff hroom, Except.ok.injEq, Prod.mk.injEq, and_iff_right rfl]
      exact splice_writeBackBools_eq_self_iff (hm.trans hn) hroom

/-- A vector of booleans whose second item is the byte `2` reads as `[true, false]` and is
written back with that byte made `0`; so is a request whose watch byte is `2`. -/
theorem codec_reencode_bool_two :
    (FieldType.vector .boolean).read [0, 0, 0, 2, 1, 2] 0 =
        .ok (.vector (some [.boolean true, .boolean false]), 6) ∧
      (FieldType.vector .boolean).write (.vector (some [.boolean true, .boolean false]))
        [0, 0, 0, 2, 1, 2] 0 = .ok (6, [0, 0, 0, 2, 1, 0]) ∧
      (Record.new Catalog.getDataRequest).chroot = none ∧
      (Record.new Catalog.getDataRequest).deserialize [0, 0, 0, 2, 47, 97, 2] 0 =
        .ok (⟨Catalog.getDataRequest, [.ustring (some "/a"), .boolean false], none⟩, 7) ∧
      Record.serialize ⟨Catalog.getDataRequest, [.ustring (some "/a"), .boolean false], none⟩
        [0, 0, 0, 2, 47, 97, 2] 0 = .ok (7, [0, 0, 0, 2, 47, 97, 0]) := by
  have hv : (FieldType.vector .boolean).read [0, 0, 0, 2, 1, 2] 0 =
      .ok (.vector (some [.boolean true, .boolean false]), 6) := rfl
  have hr : (Record.new Catalog.getDataRequest).deserialize [0, 0, 0, 2, 47, 97, 2] 0 =
      .ok (⟨Catalog.getDataRequest, [.ustring (some "/a"), .boolean false], none⟩, 7) := rfl
  refine ⟨hv, ?_, rfl, hr, ?_⟩
  · rw [((codec_reencode _ 0).1 _ _ _ hv).2.2.1 _ 0 (by decide)]
    rfl
  · rw [((codec_reencode _ 0).2 _ _ _ rfl hr).2.2.2.1 _ 0 (by decide) (by decide)]
    rfl

end Ensemble
