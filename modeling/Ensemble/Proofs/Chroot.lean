import Ensemble.Proofs.RecordCodec
import Ensemble.Proofs.DecoderBounds
import Ensemble.Path

/-! # Paths under a chroot

A client under the chroot `c` sees the server's subtree at `c`. Written, a path `p` becomes
`prependChroot c p`; read back, a server path `s` becomes `stripChroot c s`, which drops `c` as a
string prefix with no regard for where names end.

`Path.isValid_iff` reads the path check as a structure: the root, or a slash followed by a
`Path.Tail` (not empty, no trailing slash, no empty or relative name, no forbidden character).
Tails joined at a slash make a tail (`Path.Tail.append`) and the end of a tail after a slash is
one (`Path.Tail.of_append`); from these, for a chroot that is a path other than the root:

* `prependChroot_valid`, `prependChroot_subtree`, `stripChroot_prependChroot`: a path is put
  inside the chroot's subtree as a path, and stripping gives it back;
* `stripChroot_subtree`: a path of the subtree strips to a path that prepends back to it;
* `stripChroot_of_not_prefix`, `stripChroot_sibling`: outside the subtree a path is kept when the
  chroot is not a prefix of it, and when the chroot is only a string prefix of it (`/application`
  under `/app`) the strip leaves a string that is not a path.

For records, `Record.strip_outgoing` reads a record's written values back under its chroot, and
`Record.deserialize_under_chroot` gives the round trip through the bytes for every catalog class.
`chroot_translation` gathers these.
-/

namespace Ensemble

namespace Path

/-- What follows the leading slash of a path other than the root: not empty, not ending with a
slash, no empty or relative name between slashes, and no forbidden character. -/
structure Tail (rest : List Char) : Prop where
  ne_nil : rest ≠ []
  last : rest.getLast? ≠ some '/'
  names : ∀ name ∈ rest.splitOn '/', isBadName name = false
  chars : ∀ ch ∈ rest, isForbidden ch = false

/-- Past its leading slash, a path other than the root is checked for a trailing slash, then for
its names, then for its characters. -/
theorem isValid_slash {p : String} {rest : List Char} (hp : p.toList = '/' :: rest)
    (hr : rest ≠ []) : isValid p = true ↔ Tail rest := by
  have hnames : (rest.splitOn '/').find? isBadName = none ↔
      ∀ name ∈ rest.splitOn '/', isBadName name = false := by
    simp [List.find?_eq_none]
  have hchars : ('/' :: rest).find? isForbidden = none ↔ ∀ ch ∈ rest, isForbidden ch = false := by
    simp [List.find?_eq_none, show isForbidden '/' = false by decide]
  unfold isValid check
  simp only [hp, ne_eq, not_true_eq_false, if_false, List.isEmpty_iff, hr, beq_iff_eq]
  by_cases hl : rest.getLast? = some '/'
  · simp only [hl, if_true, Bool.false_eq_true, false_iff]
    exact fun h => h.last hl
  · simp only [hl, if_false]
    cases hn : (rest.splitOn '/').find? isBadName with
    | some name =>
      simp only [Bool.false_eq_true, false_iff]
      intro h
      rw [hnames.mpr h.names] at hn
      cases hn
    | none =>
      cases hf : ('/' :: rest).find? isForbidden with
      | some ch =>
        simp only [Bool.false_eq_true, false_iff]
        intro h
        rw [hchars.mpr h.chars] at hf
        cases hf
      | none => exact ⟨fun _ => ⟨hr, hl, hnames.mp hn, hchars.mp hf⟩, fun _ => rfl⟩

/-- The path check, read as a structure: a path is the root, or a slash followed by a tail. -/
theorem isValid_iff {p : String} :
    isValid p = true ↔ p = "/" ∨ ∃ rest, p.toList = '/' :: rest ∧ Tail rest := by
  by_cases hroot : p = "/"
  · subst hroot
    exact ⟨fun _ => .inl rfl, fun _ => by decide⟩
  · simp only [hroot, false_or]
    cases hp : p.toList with
    | nil =>
      unfold isValid check
      simp [hp]
    | cons ch rest =>
      by_cases hch : ch = '/'
      · subst hch
        have hr : rest ≠ [] := by
          rintro rfl
          exact hroot (String.toList_inj.mp (by rw [hp]; rfl))
        rw [isValid_slash hp hr]
        simp
      · unfold isValid check
        simp [hp, hch]

/-- A path other than the root is a slash followed by a tail. -/
theorem tail_of_isValid {p : String} (hp : isValid p = true) (hroot : p ≠ "/") :
    ∃ rest, p.toList = '/' :: rest ∧ Tail rest :=
  (isValid_iff.mp hp).resolve_left hroot

theorem isValid_of_tail {p : String} {rest : List Char} (hp : p.toList = '/' :: rest)
    (ht : Tail rest) : isValid p = true :=
  (isValid_slash hp ht.ne_nil).mpr ht

/-- A string whose first character is not a slash is not a path. -/
theorem isValid_of_head {p : String} {x : Char} {more : List Char} (hp : p.toList = x :: more)
    (hx : x ≠ '/') : isValid p = false := by
  unfold isValid check
  simp [hp, hx]

theorem getLast?_append_cons {a b : List Char} {y : Char} (hb : b ≠ []) :
    (a ++ y :: b).getLast? = b.getLast? := by
  obtain ⟨z, b', rfl⟩ := List.exists_cons_of_ne_nil hb
  rw [List.getLast?_append, List.getLast?_cons_cons, List.getLast?_cons]
  rfl

/-- Two tails joined at a slash make a tail: the names of the join are those of the two. -/
theorem Tail.append {a b : List Char} (ha : Tail a) (hb : Tail b) : Tail (a ++ '/' :: b) where
  ne_nil := by simp
  last := by
    rw [getLast?_append_cons hb.ne_nil]
    exact hb.last
  names := by
    rw [List.splitOn_append_cons_self]
    intro name h
    rcases List.mem_append.mp h with h | h
    · exact ha.names name h
    · exact hb.names name h
  chars := by
    intro ch h
    rcases List.mem_append.mp h with h | h
    · exact ha.chars ch h
    · rcases List.mem_cons.mp h with rfl | h
      · decide
      · exact hb.chars ch h

/-- What follows a slash inside a tail is a tail. -/
theorem Tail.of_append {a b : List Char} (h : Tail (a ++ '/' :: b)) : Tail b := by
  have hb : b ≠ [] := by
    rintro rfl
    exact h.last (by simp)
  refine ⟨hb, ?_, fun name hn => ?_, fun ch hc => ?_⟩
  · rw [← getLast?_append_cons hb]
    exact h.last
  · apply h.names name
    rw [List.splitOn_append_cons_self]
    exact List.mem_append_right _ hn
  · exact h.chars ch (List.mem_append_right _ (List.mem_cons_of_mem _ hc))

end Path

open Ensemble.Path

/-! ### Prepending and stripping -/

/-- Stripping a chroot from a string that continues it gives the continuation. -/
theorem stripChroot_append (c : String) {t : String} (ht : t.toList ≠ []) :
    stripChroot c (c ++ t) = t := by
  have hne : c ++ t ≠ c := by
    intro h
    have := congrArg (fun s => s.toList.length) h
    simp only [String.toList_append, List.length_append] at this
    exact ht (List.eq_nil_of_length_eq_zero (by omega))
  have hpre : c.toList.isPrefixOf (c ++ t).toList = true := by
    rw [List.isPrefixOf_iff_prefix, String.toList_append]
    exact List.prefix_append _ _
  rw [stripChroot, if_neg hne, if_pos hpre, String.toList_append, ← String.length_toList,
    List.drop_left, String.ofList_toList]

/-- A string the chroot is not a prefix of is left as it is. -/
theorem stripChroot_of_not_prefix {c s : String} (h : ¬ c.toList <+: s.toList) :
    stripChroot c s = s := by
  have hne : s ≠ c := by
    rintro rfl
    exact h (List.prefix_refl _)
  have hpre : c.toList.isPrefixOf s.toList = false := by
    rw [← Bool.not_eq_true, List.isPrefixOf_iff_prefix]
    exact h
  rw [stripChroot, if_neg hne, hpre]
  rfl

/-- Past a shared string prefix that does not end on a slash, the strip leaves no path. -/
theorem stripChroot_sibling {c s : String} (hpre : c.toList <+: s.toList) (hne : s ≠ c)
    (hsub : ∀ t, s ≠ c ++ "/" ++ t) : isValid (stripChroot c s) = false := by
  obtain ⟨rest, hrest⟩ := hpre
  have hs : s = c ++ String.ofList rest := by
    rw [← String.toList_inj, String.toList_append, String.toList_ofList, hrest]
  cases rest with
  | nil => exact absurd (by simpa using hs) hne
  | cons x more =>
    have hx : x ≠ '/' := by
      rintro rfl
      apply hsub (String.ofList more)
      rw [hs, ← String.toList_inj]
      simp
    rw [hs, stripChroot_append c (by simp)]
    exact isValid_of_head (show (String.ofList (x :: more)).toList = x :: more by simp) hx

theorem toList_prependChroot {c p : String} {rest : List Char} (hp : p.toList = '/' :: rest)
    (hne : rest ≠ []) : (prependChroot c p).toList = c.toList ++ '/' :: rest := by
  have hp1 : p ≠ "/" := by
    rintro rfl
    exact hne (List.cons.inj hp).2.symm
  rw [prependChroot, if_neg hp1, String.toList_append, hp]

/-- A path under the chroot is the chroot itself or continues it past a slash. -/
theorem prependChroot_subtree (c : String) {p : String} (hp : isValid p = true) :
    prependChroot c p = c ∨ ∃ t, prependChroot c p = c ++ "/" ++ t := by
  by_cases hp1 : p = "/"
  · left
    rw [prependChroot, if_pos hp1]
  · obtain ⟨pr, hpl, hpt⟩ := tail_of_isValid hp hp1
    refine .inr ⟨String.ofList pr, ?_⟩
    rw [← String.toList_inj, toList_prependChroot hpl hpt.ne_nil]
    simp

/-- Stripping a chroot undoes prepending it, whatever the chroot. -/
theorem stripChroot_prependChroot (c : String) {p : String} (hp : isValid p = true) :
    stripChroot c (prependChroot c p) = p := by
  by_cases hp1 : p = "/"
  · rw [prependChroot, if_pos hp1, stripChroot, if_pos rfl, hp1]
  · rw [prependChroot, if_neg hp1]
    obtain ⟨pr, hpl, -⟩ := tail_of_isValid hp hp1
    exact stripChroot_append c (by rw [hpl]; exact List.cons_ne_nil _ _)

section

variable {c : String} (hc : isValid c = true) (hroot : c ≠ "/")
include hc hroot

/-- The chroot and a path joined are a path. -/
theorem prependChroot_valid {p : String} (hp : isValid p = true) :
    isValid (prependChroot c p) = true := by
  by_cases hp1 : p = "/"
  · rw [prependChroot, if_pos hp1]
    exact hc
  · obtain ⟨cr, hcl, hct⟩ := tail_of_isValid hc hroot
    obtain ⟨pr, hpl, hpt⟩ := tail_of_isValid hp hp1
    refine isValid_of_tail ?_ (hct.append hpt)
    rw [toList_prependChroot hpl hpt.ne_nil, hcl]
    rfl

/-- A path of the chroot's subtree strips to a path, and prepending the chroot gives it back. -/
theorem stripChroot_subtree {s : String} (hs : isValid s = true)
    (hsub : s = c ∨ ∃ t, s = c ++ "/" ++ t) :
    isValid (stripChroot c s) = true ∧ prependChroot c (stripChroot c s) = s := by
  rcases hsub with rfl | ⟨t, rfl⟩
  · rw [stripChroot, if_pos rfl, prependChroot, if_pos rfl]
    exact ⟨by decide, rfl⟩
  · obtain ⟨cr, hcl, hct⟩ := tail_of_isValid hc hroot
    have hne : c ++ "/" ++ t ≠ "/" := by
      intro h
      have := congrArg String.toList h
      simp [hcl] at this
    -- the server path's tail is the chroot's tail, a slash and the client path's tail
    obtain ⟨sr, hsl, hst⟩ := tail_of_isValid hs hne
    have hsr : sr = cr ++ '/' :: t.toList := by
      simp [hcl] at hsl
      exact hsl.symm
    have htt : Tail t.toList := (hsr ▸ hst).of_append
    have hslash : "/" ++ t ≠ "/" := by
      intro h
      have := congrArg String.toList h
      simp at this
      exact htt.ne_nil (by simp [this])
    rw [String.append_assoc, stripChroot_append c (by simp)]
    refine ⟨isValid_of_tail (by simp) htt, ?_⟩
    rw [prependChroot, if_neg hslash]

end

/-! ### Records under a chroot -/

theorem Catalog.names_nodup : ∀ s ∈ Catalog.all, (s.fields.map Field.name).Nodup := by
  decide

theorem Catalog.all_solid : ∀ s ∈ Catalog.all, s.solid := by
  decide

/-- In a class whose field names differ, a field's name finds its own position. -/
theorem Schema.index?_of_getElem? {s : Schema} (hnd : (s.fields.map Field.name).Nodup) {j : Nat}
    {f : Field} (hf : s.fields[j]? = some f) : s.index? f.name = some j := by
  obtain ⟨hj, rfl⟩ := List.getElem?_eq_some_iff.mp hf
  rw [Schema.index?, List.findIdx?_eq_some_iff_getElem]
  refine ⟨hj, by simp, fun k hk => ?_⟩
  have := List.pairwise_iff_getElem.mp hnd k j (by simp; omega) (by simpa) hk
  simpa using this

namespace Record

theorem get_of_index {r : Record} {n : String} {i : Nat} {v : Value}
    (hi : r.schema.index? n = some i) (hv : r.values[i]? = some v) : r.get n = .ok v := by
  simp only [get, indexOf, hi, bind, Except.bind, hv]
  rfl

theorem getUString_of_get {r : Record} {n : String} {s : Option String}
    (h : r.get n = .ok (.ustring s)) : r.getUString n = .ok s := by
  simp only [getUString, h]
  rfl

theorem getVector_of_get {r : Record} {n : String} {items : Option (List Value)}
    (h : r.get n = .ok (.vector items)) : r.getVector n = .ok items := by
  simp only [getVector, h]
  rfl

/-- Off the path field, a value is written as it is, a watch list with items apart. -/
theorem outgoingValue_of_ne {c name : String} {v : Value} (hn : name ≠ pathField)
    (hw : name ∈ watchFields → ∀ items, v = .vector (some items) → items = []) :
    outgoingValue c name v = v := by
  cases v with
  | ustring s => cases s <;> simp [outgoingValue, hn]
  | vector items =>
    cases items with
    | none => rfl
    | some items =>
      by_cases hm : name ∈ watchFields
      · rw [hw hm items rfl]
        simp [outgoingValue, hm]
      · simp [outgoingValue, hm]
  | _ => rfl

/-- At the path field, only a present string is rewritten. -/
theorem outgoingValue_path_of_ne {c : String} {v : Value} (hv : ∀ p, v ≠ .ustring (some p)) :
    outgoingValue c pathField v = v := by
  cases v with
  | ustring s =>
    cases s with
    | none => rfl
    | some p => exact absurd rfl (hv p)
  | vector items =>
    cases items with
    | none => rfl
    | some items => simp [outgoingValue, show pathField ∉ watchFields by decide]
  | _ => rfl

/-- The value written under a chroot at a position is that of the field and value there. -/
theorem getElem?_outgoing {r : Record} {c : String} (hc : r.chroot = some c) {j : Nat}
    {f : Field} {v : Value} (hf : r.schema.fields[j]? = some f) (hv : r.values[j]? = some v) :
    r.outgoing[j]? = some (outgoingValue c f.name v) := by
  rw [outgoing, hc]
  dsimp only
  rw [List.map_zip_eq_zipWith, List.getElem?_zipWith, hf, hv]
  rfl

theorem getElem?_outgoing_none {r : Record} {c : String} (hc : r.chroot = some c) {j : Nat}
    (hf : r.schema.fields[j]? = none) : r.outgoing[j]? = none := by
  rw [outgoing, hc]
  dsimp only
  rw [List.map_zip_eq_zipWith, List.getElem?_zipWith, hf]

/-- At a position where the chroot leaves the value as it is, the written value is the stored
one. -/
theorem getElem?_outgoing_of_fixed {r : Record} {c : String} (hc : r.chroot = some c)
    (hlen : r.values.length = r.schema.fields.length) {j : Nat}
    (hfix : ∀ f v, r.schema.fields[j]? = some f → r.values[j]? = some v →
      outgoingValue c f.name v = v) :
    r.outgoing[j]? = r.values[j]? := by
  cases hf : r.schema.fields[j]? with
  | none =>
    rw [getElem?_outgoing_none hc hf, eq_comm, List.getElem?_eq_none_iff]
    rw [List.getElem?_eq_none_iff] at hf
    omega
  | some f =>
    obtain ⟨v, hv⟩ : ∃ v, r.values[j]? = some v := by
      have := (List.getElem?_eq_some_iff.mp hf).1
      exact ⟨_, List.getElem?_eq_getElem (by omega)⟩
    rw [getElem?_outgoing hc hf hv, hv, hfix f v hf hv]

/-- Off the path field the chroot leaves every value as it is, watch lists being empty. -/
theorem outgoingValue_fixed {r : Record} {c : String}
    (hnd : (r.schema.fields.map Field.name).Nodup)
    (hwatch : ∀ w ∈ watchFields, ∀ items, r.getVector w = .ok (some items) → items = [])
    {j : Nat} {f : Field} {v : Value} (hf : r.schema.fields[j]? = some f)
    (hv : r.values[j]? = some v) (hn : f.name ≠ pathField) : outgoingValue c f.name v = v := by
  refine outgoingValue_of_ne hn fun hm items hitems => hwatch f.name hm items ?_
  subst hitems
  exact getVector_of_get (get_of_index (Schema.index?_of_getElem? hnd hf) hv)

/-- With no path field, and its watch lists empty, a record is written under a chroot as it
is. -/
theorem outgoing_eq_values {r : Record} {c : String} (hc : r.chroot = some c)
    (hnd : (r.schema.fields.map Field.name).Nodup) (hlen : r.values.length = r.schema.fields.length)
    (hwatch : ∀ w ∈ watchFields, ∀ items, r.getVector w = .ok (some items) → items = [])
    (hi : r.schema.index? pathField = none) : r.outgoing = r.values :=
  List.ext_getElem? fun _ =>
    getElem?_outgoing_of_fixed hc hlen fun f _ hf hv =>
      outgoingValue_fixed hnd hwatch hf hv fun hn => by
        have := List.findIdx?_eq_none_iff.mp hi f (List.mem_of_getElem? hf)
        simp [hn] at this

/-- With its watch lists empty, a record is written under a chroot with only its path field
rewritten. -/
theorem outgoing_eq_set {r : Record} {c : String} (hc : r.chroot = some c)
    (hnd : (r.schema.fields.map Field.name).Nodup) (hlen : r.values.length = r.schema.fields.length)
    (hwatch : ∀ w ∈ watchFields, ∀ items, r.getVector w = .ok (some items) → items = [])
    {i : Nat} (hi : r.schema.index? pathField = some i) (hvi : i < r.values.length) :
    r.outgoing = r.values.set i (outgoingValue c pathField r.values[i]) := by
  obtain ⟨hfi, hpi, -⟩ := List.findIdx?_eq_some_iff_getElem.mp hi
  have hname : r.schema.fields[i].name = pathField := by simpa using hpi
  refine List.ext_getElem? fun j => ?_
  by_cases hj : j = i
  · subst hj
    rw [List.getElem?_set_self hvi, ← hname]
    exact getElem?_outgoing hc (List.getElem?_eq_getElem hfi) (List.getElem?_eq_getElem hvi)
  · -- every other field has another name, so its value is written as it is
    rw [List.getElem?_set_ne (Ne.symm hj)]
    exact getElem?_outgoing_of_fixed hc hlen fun f v hf hv =>
      outgoingValue_fixed hnd hwatch hf hv fun hn =>
        hj (Option.some.inj ((Schema.index?_of_getElem? hnd hf).symm.trans (hn ▸ hi)))

/-- Read back under its chroot, a record written under it is the record again: the path is
prepended and stripped, and every other value is written as it is. -/
theorem strip_outgoing {r : Record} {c : String} (hc : r.chroot = some c)
    (hnd : (r.schema.fields.map Field.name).Nodup) (hlen : r.values.length = r.schema.fields.length)
    (hpath : ∀ p, r.getUString pathField = .ok (some p) → isValid p = true)
    (hwatch : ∀ w ∈ watchFields, ∀ items, r.getVector w = .ok (some items) → items = []) :
    { r with values := r.outgoing }.strip = r := by
  unfold strip
  dsimp only
  rw [hc]
  cases hi : r.schema.index? pathField with
  | none =>
    dsimp only
    rw [outgoing_eq_values hc hnd hlen hwatch hi, ← hc]
  | some i =>
    have hvi : i < r.values.length := by
      have := (List.findIdx?_eq_some_iff_getElem.mp hi).1
      omega
    rw [outgoing_eq_set hc hnd hlen hwatch hi hvi]
    dsimp only
    rw [List.getElem?_set_self (by simpa using hvi), ← hc]
    by_cases hp : ∃ p, r.values[i] = .ustring (some p)
    · -- the path is written under the chroot and read back from under it
      obtain ⟨p, hp⟩ := hp
      have hvalid := hpath p
        (getUString_of_get (get_of_index hi (hp ▸ List.getElem?_eq_getElem hvi)))
      simp only [hp, outgoingValue, if_pos, stripChroot_prependChroot c hvalid, List.set_set]
      rw [← hp, List.set_getElem_self]
    · -- a path that is absent, or not a string, is written and read as it is
      rw [outgoingValue_path_of_ne fun p h => hp ⟨p, h⟩, List.set_getElem_self]
      split
      · rename_i p hv
        exact absurd ⟨p, Option.some.inj hv⟩ hp
      · rfl

/-! ### Records held in fields

A record held in a field goes on the wire under its own chroot and is read back without one
(`Value.sent`). The chroot's rewrite of a record's own values commutes with that, so a record
read back under its chroot is the record with each value as the wire carries it. -/

theorem Value.sentItems_none (items : List Value) :
    Value.sentItems none items = items.map Value.sent := by
  induction items with
  | nil => rfl
  | cons v vs ih => exact congrArg (v.sent :: ·) ih

theorem watchItem_sent (c : String) (v : Value) : watchItem c v.sent = (watchItem c v).sent := by
  cases v with
  | ustring s => cases s <;> rfl
  | vector items => cases items <;> rfl
  | _ => rfl

/-- The chroot's rewrite of a value commutes with the value's wire form. -/
theorem outgoingValue_sent (c name : String) (v : Value) :
    outgoingValue c name v.sent = (outgoingValue c name v).sent := by
  cases v with
  | ustring s =>
    cases s with
    | some p => by_cases hn : name = pathField <;> simp [outgoingValue, hn, Value.sent]
    | none => rfl
  | vector items =>
    cases items with
    | some items =>
      by_cases hw : name ∈ watchFields <;>
        simp [outgoingValue, hw, Value.sent, Value.sentItems_none, Function.comp_def,
          watchItem_sent]
    | none => rfl
  | _ => rfl

/-- The record with each value as the wire carries it goes out as the record does. -/
theorem outgoing_map_sent (r : Record) :
    { r with values := r.values.map Value.sent }.outgoing = r.outgoing.map Value.sent := by
  unfold outgoing
  dsimp only
  cases r.chroot with
  | none => rfl
  | some c => simp [List.zip_map_right, Function.comp_def, outgoingValue_sent]

theorem get_map_sent (r : Record) (name : String) :
    { r with values := r.values.map Value.sent }.get name = Value.sent <$> r.get name := by
  unfold get indexOf noSuchField
  dsimp only
  cases r.schema.index? name with
  | none => rfl
  | some i =>
    simp only [bind, Except.bind, List.getElem?_map]
    cases r.values[i]? <;> rfl

/-- A string field reads the same once each value is as the wire carries it. -/
theorem getUString_map_sent (r : Record) (name : String) :
    { r with values := r.values.map Value.sent }.getUString name = r.getUString name := by
  unfold getUString wrongKind
  rw [get_map_sent]
  cases r.get name with
  | error e => rfl
  | ok v =>
    cases v with
    | vector items => cases items <;> rfl
    | _ => rfl

/-- A vector field holds each item as the wire carries it. -/
theorem getVector_map_sent (r : Record) (name : String) :
    { r with values := r.values.map Value.sent }.getVector name
      = Option.map (List.map Value.sent) <$> r.getVector name := by
  unfold getVector wrongKind
  rw [get_map_sent]
  cases r.get name with
  | error e => rfl
  | ok v =>
    cases v with
    | vector items =>
      cases items with
      | some items =>
        show (pure (some (Value.sentItems none items)) : Except Error _)
          = pure (some (items.map Value.sent))
        rw [Value.sentItems_none]
      | none => rfl
    | _ => rfl

/-- A record whose values hold no chroot is its own wire form. -/
theorem map_sent_of_plain {r : Record} (ha : r.Admitted) (hp : Value.AllPlain r.values) :
    { r with values := r.values.map Value.sent } = r := by
  rw [Value.map_sent_of_plain ha hp]

/-- A catalog record written under a chroot, its path absent or a path and its watch lists
absent or empty, is read back by a fresh record of its class under the same chroot: the record
with each value as the wire carries it, when every length the wire carries is below `2 ^ 31`. -/
theorem deserialize_under_chroot {r : Record} {c : String} (hc : r.chroot = some c)
    (hcv : isValid c = true) (hs : r.schema ∈ Catalog.all) (ha : r.Admitted)
    (hpath : ∀ p, r.getUString pathField = .ok (some p) → isValid p = true)
    (hwatch : ∀ w ∈ watchFields, ∀ items, r.getVector w = .ok (some items) → items = []) :
    ∃ bs, r.encode = .ok bs ∧ (Value.AllBounded r.sentValues →
      ((Record.new r.schema).setChroot (some c)).deserialize bs 0
        = .ok ({ r with values := r.values.map Value.sent }, bs.length)) := by
  obtain ⟨bs, hbs⟩ := encode_ok ha
  refine ⟨bs, hbs, fun hb => ?_⟩
  have hne : 0 < bs.length :=
    Nat.lt_of_lt_of_le (Catalog.leastLength_pos _ hs) (leastLength_le ha hbs)
  have hce : c ≠ "" := by
    rintro rfl
    exact absurd hcv (by decide)
  have hch : ((Record.new r.schema).setChroot (some c)).chroot = r.chroot := by
    simp [setChroot, Record.new, hce, hc]
  have hpath' : ∀ p, { r with values := r.values.map Value.sent }.getUString pathField
      = .ok (some p) → isValid p = true := by
    intro p hp
    rw [getUString_map_sent] at hp
    exact hpath p hp
  have hwatch' : ∀ w ∈ watchFields, ∀ items,
      { r with values := r.values.map Value.sent }.getVector w = .ok (some items) → items = [] := by
    intro w hw items hv
    rw [getVector_map_sent] at hv
    cases hr : r.getVector w with
    | error e => rw [hr] at hv; cases hv
    | ok o =>
      rw [hr] at hv
      cases o with
      | none => cases hv
      | some l =>
        cases hv
        rw [hwatch w hw l hr, List.map_nil]
  -- what is read back is the wire form of the record, written and read under its chroot
  rw [deserialize_encode (r := r) (q := (Record.new r.schema).setChroot (some c)) rfl ha hb hbs hne
    (show bs.drop 0 = bs ++ [] by simp), sentValues_eq ha.length_eq, ← outgoing_map_sent, hch]
  exact congrArg (fun q => Except.ok (q, bs.length))
    (strip_outgoing (r := { r with values := r.values.map Value.sent }) hc
      (Catalog.names_nodup _ hs) (by simpa using ha.length_eq) hpath' hwatch')

end Record

/-- **Paths under a chroot.** For a chroot that is a path other than the root: a client path is
put inside the chroot's subtree as a path, and stripping gives it back; a server path of the
subtree strips to a client path that prepends back to it; outside the subtree a server path is
kept when the chroot is not a prefix of it, and strips to a string that is no path when the chroot
is only a string prefix of it. A catalog record under the chroot, its path absent or a path and
its watch lists absent or empty, is read back from its bytes when every length they carry is
below `2 ^ 31`: as the record with each value as the wire carries it, which is the record itself
unless a record held in one of its fields has a chroot (`Record.map_sent_of_plain`). -/
theorem chroot_translation (c : String) (hc : isValid c = true) (hroot : c ≠ "/") :
    (∀ p, isValid p = true →
      isValid (prependChroot c p) = true ∧
      (prependChroot c p = c ∨ ∃ t, prependChroot c p = c ++ "/" ++ t) ∧
      stripChroot c (prependChroot c p) = p) ∧
    (∀ s, isValid s = true → (s = c ∨ ∃ t, s = c ++ "/" ++ t) →
      isValid (stripChroot c s) = true ∧ prependChroot c (stripChroot c s) = s) ∧
    (∀ s, ¬ c.toList <+: s.toList → stripChroot c s = s) ∧
    (∀ s, c.toList <+: s.toList → s ≠ c → (∀ t, s ≠ c ++ "/" ++ t) →
      isValid (stripChroot c s) = false) ∧
    ∀ r : Record, r.schema ∈ Catalog.all → r.Admitted → r.chroot = some c →
      (∀ p, r.getUString pathField = .ok (some p) → isValid p = true) →
      (∀ w ∈ watchFields, ∀ items, r.getVector w = .ok (some items) → items = []) →
      ∃ bs, r.encode = .ok bs ∧ (Value.AllBounded r.sentValues →
        ((Record.new r.schema).setChroot (some c)).deserialize bs 0
          = .ok ({ r with values := r.values.map Value.sent }, bs.length)) :=
  ⟨fun _ hp => ⟨prependChroot_valid hc hroot hp, prependChroot_subtree c hp,
      stripChroot_prependChroot c hp⟩,
    fun _ hs hsub => stripChroot_subtree hc hroot hs hsub,
    fun _ h => stripChroot_of_not_prefix h,
    fun _ hpre hne hsub => stripChroot_sibling hpre hne hsub,
    fun _ hs ha hrc hpath hwatch => Record.deserialize_under_chroot hrc hc hs ha hpath hwatch⟩

/-- Under `/app`, the client path `/x` is read back from `/app/x`, and a `CreateResponse`
holding `/x`, written under `/app` as the string `/app/x`, is read back whole. -/
theorem chroot_translation_create :
    stripChroot "/app" (prependChroot "/app" "/x") = "/x" ∧
      ((Record.new Catalog.createResponse).setChroot (some "/app")).deserialize
          [0, 0, 0, 6, 47, 97, 112, 112, 47, 120] 0
        = .ok (⟨Catalog.createResponse, [.ustring (some "/x")], some "/app"⟩, 10) := by
  have h := chroot_translation "/app" (by decide) (by decide)
  refine ⟨(h.1 "/x" (by decide)).2.2, ?_⟩
  obtain ⟨bs, hbs, hread⟩ := h.2.2.2.2 ⟨Catalog.createResponse, [.ustring (some "/x")], some "/app"⟩
    (by simp [Catalog.all]) ⟨trivial, trivial⟩ rfl
    (fun p hp => by
      cases hp
      decide)
    (fun w hw items hv => by
      simp only [watchFields, List.mem_cons, List.not_mem_nil, or_false] at hw
      rcases hw with rfl | rfl | rfl <;> cases hv)
  have hbytes : bs = [0, 0, 0, 6, 47, 97, 112, 112, 47, 120] := by
    have : Record.encode ⟨Catalog.createResponse, [.ustring (some "/x")], some "/app"⟩
        = .ok [0, 0, 0, 6, 47, 97, 112, 112, 47, 120] := rfl
    rw [this] at hbs
    cases hbs
    rfl
  subst hbytes
  -- the one length the wire carries is that of the string `/app/x`
  have hb : Value.AllBounded (Record.sentValues
      ⟨Catalog.createResponse, [.ustring (some "/x")], some "/app"⟩) := by
    show Value.AllBounded [.ustring (some "/app/x")]
    exact ⟨show _ < _ by decide, trivial⟩
  exact hread hb

/-- Under the chroot `/app`, the server path `/application` strips to `lication`, which is not a
path. -/
theorem stripChroot_shared_prefix :
    isValid "/app" = true ∧ "/app" ≠ "/" ∧ isValid "/application" = true ∧
      stripChroot "/app" "/application" = "lication" ∧
      isValid (stripChroot "/app" "/application") = false := by
  decide

end Ensemble
