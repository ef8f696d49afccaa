import Ensemble.Proofs.Chroot

/-! # The grammar of node paths

`Path.check` runs its rules as tests in a fixed order: on the whole string, on the names between
slashes, then on the characters. This module says what those tests decide, without them:

* `Path.Grammar`: a node path is `/`, or a slash before each of one or more names
  (`Path.NodeName`: not empty, not `.` or `..`, holding no slash), and holds no character of the
  forbidden ranges (`Path.ForbiddenChar`);
* `Path.FirstFault`: the fault a string is refused with is the first rule it breaks, in the order
  empty, no leading slash, trailing slash, leftmost bad name, leftmost forbidden character;
* `Escaped.PaddedHex`: a forbidden character is named by the lowercase hexadecimal numeral of its
  code point, padded with zeros to four digits and no further.

The main lemmas are `Path.check_eq_ok_iff`, `Path.check_eq_error_iff` and `Escaped.hex_padded`;
`validate_follows_grammar` gathers them for `Path.validate`.
-/

namespace Ensemble

/-! ## Numerals -/

/-- Every digit of core's base-`b` numeral is the digit of a value below `b`. -/
theorem exists_digitChar_of_mem_toDigits {b n : Nat} {d : Char} (hb : 1 < b)
    (hd : d ∈ Nat.toDigits b n) : ∃ m < b, d = m.digitChar := by
  induction n using Nat.strongRecOn with
  | ind n ih =>
    rw [Nat.toDigits_eq_if hb] at hd
    split at hd
    · exact ⟨n, ‹n < b›, List.mem_singleton.mp hd⟩
    · rcases List.mem_append.mp hd with hd | hd
      · exact ih (n / b) (Nat.div_lt_self (by omega) hb) hd
      · exact ⟨n % b, Nat.mod_lt n (by omega), List.mem_singleton.mp hd⟩

/-- Core's base-`b` numeral, each digit read back as its value, stands for the number. -/
theorem foldl_toDigits {b : Nat} (hb : 1 < b) {value : Char → Nat}
    (hvalue : ∀ m < b, value m.digitChar = m) (n : Nat) :
    (Nat.toDigits b n).foldl (fun acc d => b * acc + value d) 0 = n := by
  induction n using Nat.strongRecOn with
  | ind n ih =>
    rw [Nat.toDigits_eq_if hb]
    split
    · simp [hvalue n ‹n < b›]
    · -- the numeral of `n / b` is followed by the digit of `n % b`
      have hlt : n / b < n := Nat.div_lt_self (by omega) hb
      have hmod : n % b < b := Nat.mod_lt n (by omega)
      rw [List.foldl_append, ih (n / b) hlt, List.foldl_cons, List.foldl_nil, hvalue _ hmod]
      exact Nat.div_add_mod n b

namespace Escaped

/-- The lowercase hexadecimal digits, in order of value. -/
def hexDigits : List Char :=
  ['0', '1', '2', '3', '4', '5', '6', '7', '8', '9', 'a', 'b', 'c', 'd', 'e', 'f']

/-- The number a hexadecimal numeral stands for: each digit is worth its place in `hexDigits`. -/
def hexValue (ds : List Char) : Nat :=
  ds.foldl (fun n d => 16 * n + hexDigits.idxOf d) 0

/-- `ds` is the lowercase hexadecimal numeral of `n`, padded with zeros to `width` digits and not
beyond. -/
structure PaddedHex (width : Nat) (ds : List Char) (n : Nat) : Prop where
  digits : ∀ d ∈ ds, d ∈ hexDigits
  value : hexValue ds = n
  width_le : width ≤ ds.length
  unpadded : width < ds.length → ds.head? ≠ some '0'

/-- Zeros in front of a numeral leave its value as it is. -/
theorem hexValue_zeros (k : Nat) (ds : List Char) :
    hexValue (List.replicate k '0' ++ ds) = hexValue ds := by
  have hz : (List.replicate k '0').foldl (fun n d => 16 * n + hexDigits.idxOf d) 0 = 0 := by
    induction k with
    | zero => rfl
    | succ k ih => simpa [List.replicate_succ, hexDigits] using ih
  rw [hexValue, List.foldl_append, hz]
  rfl

theorem digitChar_mem_hexDigits : ∀ m < 16, m.digitChar ∈ hexDigits := by
  decide

theorem idxOf_digitChar : ∀ m < 16, hexDigits.idxOf m.digitChar = m := by
  decide

/-- Core's base-16 digits are lowercase hexadecimal digits that stand for the number. -/
theorem toDigits_hex (n : Nat) :
    (∀ d ∈ Nat.toDigits 16 n, d ∈ hexDigits) ∧ hexValue (Nat.toDigits 16 n) = n := by
  refine ⟨fun d hd => ?_, foldl_toDigits (by decide) idxOf_digitChar n⟩
  obtain ⟨m, hm, rfl⟩ := exists_digitChar_of_mem_toDigits (by decide) hd
  exact digitChar_mem_hexDigits m hm

/-- The numeral of a positive number does not start with a zero. -/
theorem toDigits_hex_head (n : Nat) (hn : 0 < n) : (Nat.toDigits 16 n).head? ≠ some '0' := by
  induction n using Nat.strongRecOn with
  | ind n ih =>
    rw [Nat.toDigits_eq_if (by decide)]
    split
    · simp only [List.head?_cons, ne_eq, Option.some.injEq, Nat.digitChar_eq_zero]
      omega
    · rename_i hn16
      have hq : 0 < n / 16 := Nat.div_pos (by omega) (by decide)
      obtain ⟨d, ds, hds⟩ :=
        List.exists_cons_of_ne_nil (Nat.toDigits_ne_nil (n := n / 16) (b := 16))
      have hhead := ih (n / 16) (Nat.div_lt_self hn (by decide)) hq
      rw [hds] at hhead ⊢
      simpa using hhead

/-- `hex width n` is the lowercase hexadecimal numeral of `n`, padded with zeros to `width`. -/
theorem hex_padded {width : Nat} (hw : 0 < width) (n : Nat) :
    PaddedHex width (hex width n).toList n := by
  obtain ⟨hdigits, hvalue⟩ := toDigits_hex n
  have hpos : 0 < (Nat.toDigits 16 n).length := Nat.length_toDigits_pos
  simp only [hex, String.toList_ofList]
  refine ⟨fun d hd => ?_, ?_, ?_, fun hlong => ?_⟩
  · rcases List.mem_append.mp hd with hd | hd
    · rw [List.eq_of_mem_replicate hd]
      decide
    · exact hdigits d hd
  · rw [hexValue_zeros, hvalue]
  · simp only [List.length_append, List.length_replicate]
    omega
  · -- only a numeral already as wide as `width` is longer than it, and it carries no padding
    simp only [List.length_append, List.length_replicate] at hlong
    have hnone : width - (Nat.toDigits 16 n).length = 0 := by omega
    rw [hnone, List.replicate_zero, List.nil_append]
    have hn : 0 < n := by
      rcases Nat.eq_zero_or_pos n with rfl | hn
      · simp [Nat.toDigits_zero] at hlong
        omega
      · exact hn
    exact toDigits_hex_head n hn

example : hex 4 0x7f = "007f" ∧ hex 4 0x1f600 = "1f600" := by decide

end Escaped

/-! ## The grammar -/

namespace Path

/-- A name between slashes of a node path: not empty, neither `.` nor `..`, and holding no
slash. -/
def NodeName (x : List Char) : Prop :=
  x ≠ [] ∧ x ≠ ['.'] ∧ x ≠ ['.', '.'] ∧ '/' ∉ x

instance (x : List Char) : Decidable (NodeName x) :=
  inferInstanceAs (Decidable (x ≠ [] ∧ x ≠ ['.'] ∧ x ≠ ['.', '.'] ∧ '/' ∉ x))

/-- The characters no node path holds: the C0 controls, DEL and the C1 controls, the private-use
characters of the basic plane, and `U+FFF0`–`U+FFFF`. -/
def ForbiddenChar (c : Char) : Prop :=
  c.toNat ≤ 0x1F ∨ (0x7F ≤ c.toNat ∧ c.toNat ≤ 0x9F) ∨ (0xE000 ≤ c.toNat ∧ c.toNat ≤ 0xF8FF) ∨
    (0xFFF0 ≤ c.toNat ∧ c.toNat ≤ 0xFFFF)

instance (c : Char) : Decidable (ForbiddenChar c) :=
  inferInstanceAs (Decidable (c.toNat ≤ 0x1F ∨ (0x7F ≤ c.toNat ∧ c.toNat ≤ 0x9F) ∨
    (0xE000 ≤ c.toNat ∧ c.toNat ≤ 0xF8FF) ∨ (0xFFF0 ≤ c.toNat ∧ c.toNat ≤ 0xFFFF)))

/-- The node paths: `/`, or `/x₁/…/xₖ` for one or more node names `xᵢ`, with no forbidden
character. -/
def Grammar (s : String) : Prop :=
  s = "/" ∨
    ((∃ names : List (List Char), names ≠ [] ∧ (∀ x ∈ names, NodeName x) ∧
        s.toList = (names.map ('/' :: ·)).flatten) ∧
      ∀ c ∈ s.toList, ¬ ForbiddenChar c)

/-- The fault a string is refused with: the first rule it breaks, the rules taken in the order
empty, no leading slash, a trailing slash (the root apart), the leftmost name between slashes that
is empty or relative, the leftmost forbidden character. Each rule holds of a string only when the
rules before it pass. -/
inductive FirstFault : String → PathFault → Prop where
  | empty : FirstFault "" .empty
  | noLeadingSlash {s : String} {c : Char} {rest : List Char} :
      s.toList = c :: rest → c ≠ '/' → FirstFault s .noLeadingSlash
  | trailingSlash {s : String} {rest : List Char} :
      s.toList = '/' :: rest → rest ≠ [] → rest.getLast? = some '/' → FirstFault s .trailingSlash
  | emptyName {s : String} {rest : List Char} {before after : List (List Char)} :
      s.toList = '/' :: rest → rest ≠ [] → rest.getLast? ≠ some '/' →
      rest.splitOn '/' = before ++ [] :: after → (∀ y ∈ before, NodeName y) →
      FirstFault s .emptyNode
  | relativeName {s : String} {rest x : List Char} {before after : List (List Char)} :
      s.toList = '/' :: rest → rest ≠ [] → rest.getLast? ≠ some '/' →
      rest.splitOn '/' = before ++ x :: after → (∀ y ∈ before, NodeName y) →
      (x = ['.'] ∨ x = ['.', '.']) → FirstFault s .relative
  | forbidden {s : String} {rest before after : List Char} {c : Char} :
      s.toList = '/' :: rest → rest ≠ [] → rest.getLast? ≠ some '/' →
      (∀ y ∈ rest.splitOn '/', NodeName y) → s.toList = before ++ c :: after →
      (∀ d ∈ before, ¬ ForbiddenChar d) → ForbiddenChar c → FirstFault s (.forbidden c)

theorem isForbidden_iff (c : Char) : isForbidden c = true ↔ ForbiddenChar c := by
  simp [isForbidden, ForbiddenChar, or_assoc]

/-- No piece of a split holds the separator. -/
theorem not_mem_of_mem_splitOn {a : Char} :
    ∀ {l x : List Char}, x ∈ l.splitOn a → a ∉ x
  | [], x, h => by
    rw [List.splitOn_nil, List.mem_singleton] at h
    subst h
    exact List.not_mem_nil
  | d :: l, x, h => by
    rw [List.splitOn_cons_eq_if_modifyHead] at h
    obtain ⟨p, ps, hps⟩ := List.exists_cons_of_ne_nil (List.splitOn_ne_nil a l)
    have hp : a ∉ p := not_mem_of_mem_splitOn (by rw [hps]; exact List.mem_cons_self)
    split at h
    · rcases List.mem_cons.mp h with rfl | h
      · exact List.not_mem_nil
      · exact not_mem_of_mem_splitOn h
    · -- the first piece takes `d` in front, which is not the separator
      rename_i hd
      rw [hps, List.modifyHead_cons] at h
      rcases List.mem_cons.mp h with rfl | h
      · intro hmem
        rcases List.mem_cons.mp hmem with rfl | hmem
        · exact hd (beq_self_eq_true a)
        · exact hp hmem
      · exact not_mem_of_mem_splitOn (by rw [hps]; exact List.mem_cons_of_mem _ h)

/-- Among strings without a slash, the names the check lets through are the node names. -/
theorem isBadName_eq_false_iff {x : List Char} (hx : '/' ∉ x) :
    isBadName x = false ↔ NodeName x := by
  simp [isBadName, NodeName, hx, and_assoc]

/-! ## Acceptance -/

/-- A slash before each name of a list is a slash, then the names joined by slashes. -/
theorem cons_intercalate {a : Char} :
    ∀ {names : List (List Char)}, names ≠ [] →
      a :: [a].intercalate names = (names.map (a :: ·)).flatten
  | [x], _ => by simp
  | x :: y :: names, _ => by
    have ih := cons_intercalate (a := a) (List.cons_ne_nil y names)
    rw [List.intercalate_cons_cons, List.map_cons, List.flatten_cons, ← ih]
    simp

/-- When every name between slashes is a node name, the text is not empty and does not end with
a slash: either would leave an empty name. -/
theorem ne_nil_of_names {rest : List Char} (h : ∀ y ∈ rest.splitOn '/', NodeName y) :
    rest ≠ [] ∧ rest.getLast? ≠ some '/' := by
  constructor
  · rintro rfl
    exact (h [] (by simp [List.splitOn_nil])).1 rfl
  · intro hl
    obtain ⟨init, rfl⟩ := List.getLast?_eq_some_iff.mp hl
    have hempty : [] ∈ (init ++ ['/']).splitOn '/' := by
      rw [List.splitOn_append_cons_self]
      simp [List.splitOn_nil]
    exact (h [] hempty).1 rfl

/-- Past the leading slash, what the check lets through is text whose names are node names and
whose characters are allowed. -/
theorem tail_iff {rest : List Char} :
    Tail rest ↔ (∀ y ∈ rest.splitOn '/', NodeName y) ∧ ∀ c ∈ rest, ¬ ForbiddenChar c := by
  constructor
  · intro ht
    refine ⟨fun y hy => ?_, fun c hc => ?_⟩
    · exact (isBadName_eq_false_iff (not_mem_of_mem_splitOn hy)).mp (ht.names y hy)
    · rw [← isForbidden_iff, ht.chars c hc]
      decide
  · rintro ⟨hnames, hchars⟩
    obtain ⟨hne, hlast⟩ := ne_nil_of_names hnames
    refine ⟨hne, hlast, fun y hy => ?_, fun c hc => ?_⟩
    · exact (isBadName_eq_false_iff (not_mem_of_mem_splitOn hy)).mpr (hnames y hy)
    · simpa [← isForbidden_iff] using hchars c hc

/-- The path check accepts exactly the node paths of the grammar. -/
theorem check_eq_ok_iff {s : String} : check s = .ok () ↔ Grammar s := by
  have hvalid : check s = .ok () ↔ isValid s = true := by
    unfold isValid
    cases check s <;> simp
  rw [hvalid, isValid_iff, Grammar]
  apply or_congr_right
  constructor
  · rintro ⟨rest, hs, ht⟩
    obtain ⟨hnames, hchars⟩ := tail_iff.mp ht
    have hne := List.splitOn_ne_nil '/' rest
    refine ⟨⟨rest.splitOn '/', hne, hnames, ?_⟩, fun c hc => ?_⟩
    · rw [hs, ← cons_intercalate hne, List.intercalate_splitOn]
    · rw [hs] at hc
      rcases List.mem_cons.mp hc with rfl | hc
      · decide
      · exact hchars c hc
  · -- the names joined by slashes split back into the names, none of which holds a slash
    rintro ⟨⟨names, hne, hnames, hs⟩, hchars⟩
    rw [← cons_intercalate hne] at hs
    have hsplit : (['/'].intercalate names).splitOn '/' = names :=
      List.splitOn_intercalate '/' (fun x hx => (hnames x hx).2.2.2) hne
    refine ⟨_, hs, tail_iff.mpr ⟨?_, fun c hc => hchars c ?_⟩⟩
    · rw [hsplit]
      exact hnames
    · rw [hs]
      exact List.mem_cons_of_mem _ hc

/-- A run of a character that is neither a slash nor a dot is a node name. -/
theorem nodeName_replicate {c : Char} (hs : c ≠ '/') (hd : c ≠ '.') {n : Nat} (hn : 0 < n) :
    NodeName (List.replicate n c) := by
  have hmem : c ∈ List.replicate n c := List.mem_replicate.mpr ⟨by omega, rfl⟩
  refine ⟨List.ne_nil_of_mem hmem, fun h => ?_, fun h => ?_,
    fun h => hs (List.eq_of_mem_replicate h).symm⟩
  · rw [h, List.mem_singleton] at hmem
    exact hd hmem
  · rw [h] at hmem
    simp only [List.mem_cons, List.not_mem_nil, or_false, or_self] at hmem
    exact hd hmem

/-- A slash before one node name of allowed characters is a node path. -/
theorem check_slash_name {x : List Char} (hx : NodeName x) (hc : ∀ c ∈ x, ¬ ForbiddenChar c) :
    check (String.ofList ('/' :: x)) = .ok () := by
  rw [check_eq_ok_iff, Grammar]
  refine Or.inr ⟨⟨[x], List.cons_ne_nil _ _, by simpa using hx, by simp⟩, fun c hc' => ?_⟩
  rw [String.toList_ofList] at hc'
  rcases List.mem_cons.mp hc' with rfl | hc'
  · decide
  · exact hc c hc'

/-! ## The first fault -/

/-- The check's search for a bad name finds the leftmost name that is not a node name. -/
theorem find?_badName_eq_some_iff {rest x : List Char} :
    (rest.splitOn '/').find? isBadName = some x ↔ isBadName x = true ∧
      ∃ before after, rest.splitOn '/' = before ++ x :: after ∧ ∀ y ∈ before, NodeName y := by
  rw [List.find?_eq_some_iff_append]
  refine and_congr_right fun _ => exists₂_congr fun before after =>
    and_congr_right fun hsplit => forall₂_congr fun y hy => ?_
  -- a name before `x` is a piece of the split, so it holds no slash
  have hy' : y ∈ rest.splitOn '/' := by
    rw [hsplit]
    exact List.mem_append_left _ hy
  rw [← isBadName_eq_false_iff (not_mem_of_mem_splitOn hy')]
  simp

theorem find?_badName_eq_none_iff {rest : List Char} :
    (rest.splitOn '/').find? isBadName = none ↔ ∀ y ∈ rest.splitOn '/', NodeName y := by
  rw [List.find?_eq_none]
  apply forall₂_congr
  intro y hy
  rw [← isBadName_eq_false_iff (not_mem_of_mem_splitOn hy)]
  simp

/-- The check's search for a forbidden character finds the leftmost one. -/
theorem find?_isForbidden_eq_some_iff {cs : List Char} {c : Char} :
    cs.find? isForbidden = some c ↔ ForbiddenChar c ∧
      ∃ before after, cs = before ++ c :: after ∧ ∀ d ∈ before, ¬ ForbiddenChar d := by
  simp [List.find?_eq_some_iff_append, ← isForbidden_iff]

/-- Every fault the check reports is the first rule the string breaks. -/
theorem firstFault_of_check {s : String} {f : PathFault} (h : check s = .error f) :
    FirstFault s f := by
  unfold check at h
  split at h
  · rename_i hs
    cases h
    rw [String.toList_eq_nil_iff.mp hs]
    exact .empty
  · rename_i c rest hs
    split at h
    · cases h
      exact .noLeadingSlash hs ‹_›
    have hc : c = '/' := Decidable.of_not_not ‹_›
    subst hc
    split at h
    · cases h
    have hr : rest ≠ [] := by simpa using ‹¬ rest.isEmpty = true›
    split at h
    · cases h
      exact .trailingSlash hs hr (by simpa using ‹(rest.getLast? == some '/') = true›)
    have hl : rest.getLast? ≠ some '/' := by simpa using ‹¬ (rest.getLast? == some '/') = true›
    split at h
    · -- the leftmost bad name decides between an empty and a relative name
      rename_i x hx
      obtain ⟨hbad, before, after, hsplit, hbefore⟩ := find?_badName_eq_some_iff.mp hx
      cases h
      by_cases hempty : x = []
      · subst hempty
        exact .emptyName hs hr hl hsplit hbefore
      · have hrel : x = ['.'] ∨ x = ['.', '.'] := by
          simpa [isBadName, hempty] using hbad
        simpa [hempty] using FirstFault.relativeName hs hr hl hsplit hbefore hrel
    · rename_i hnames
      split at h
      · rename_i d hd
        cases h
        obtain ⟨hforb, before, after, hs', hbefore⟩ := find?_isForbidden_eq_some_iff.mp hd
        exact .forbidden hs hr hl (find?_badName_eq_none_iff.mp hnames) hs' hbefore hforb
      · cases h

/-- A string is refused with the first rule it breaks. -/
theorem check_of_firstFault {s : String} {f : PathFault} (h : FirstFault s f) :
    check s = .error f := by
  cases h with
  | empty => rfl
  | noLeadingSlash hs hc => simp [check, hs, hc]
  | trailingSlash hs hr hl => simp [check, hs, hr, hl]
  | emptyName hs hr hl hsplit hbefore =>
    have hx := find?_badName_eq_some_iff.mpr ⟨rfl, _, _, hsplit, hbefore⟩
    simp [check, hs, hr, hl, hx]
  | relativeName hs hr hl hsplit hbefore hrel =>
    rcases hrel with rfl | rfl
    all_goals
      have hx := find?_badName_eq_some_iff.mpr ⟨rfl, _, _, hsplit, hbefore⟩
      simp [check, hs, hr, hl, hx]
  | forbidden hs hr hl hnames hs' hbefore hforb =>
    have hx := find?_badName_eq_none_iff.mpr hnames
    have hd := find?_isForbidden_eq_some_iff.mpr ⟨hforb, _, _, hs', hbefore⟩
    rw [hs] at hd
    simp [check, hs, hr, hl, hx, hd]

theorem check_eq_error_iff {s : String} {f : PathFault} :
    check s = .error f ↔ FirstFault s f :=
  ⟨firstFault_of_check, check_of_firstFault⟩

theorem validate_eq_ok_of_check {s : String} (h : check s = .ok ()) : validate s = .ok () := by
  unfold validate
  rw [h]

/-- Validation refuses a string only as an invalid argument that names it with the check's
fault. -/
theorem validate_eq_error_iff {s : String} {e : Error} :
    validate s = .error e ↔ ∃ f, e = .invalidArgument (.invalidPath s f) ∧ check s = .error f := by
  unfold validate
  cases check s with
  | ok u => simp
  | error f => simp [eq_comm]

end Path

/-- Path validation accepts exactly the node paths of the grammar. Every other string is refused
as an invalid argument that names the string and the first rule it breaks, and a forbidden
character is written in the message as the lowercase hexadecimal numeral of its code point, padded
with zeros to four digits. -/
theorem validate_follows_grammar (s : String) :
    (Path.validate s = .ok () ↔ Path.Grammar s) ∧
    (∀ e, Path.validate s = .error e ↔
      ∃ f, e = .invalidArgument (.invalidPath s f) ∧ Path.FirstFault s f) ∧
    ∀ c, ∃ digits : String,
      (ArgumentFault.invalidPath s (.forbidden c)).message =
        "invalid path " ++ Escaped.string s ++ ": " ++
          ("invalid character \\u\x7b" ++ digits ++ "\x7d") ∧
      Escaped.PaddedHex 4 digits.toList c.toNat := by
  refine ⟨?_, fun e => ?_, fun c => ⟨_, rfl, Escaped.hex_padded (by decide) c.toNat⟩⟩
  · rw [← Path.check_eq_ok_iff]
    unfold Path.validate
    cases Path.check s <;> simp
  · simp only [Path.validate_eq_error_iff, Path.check_eq_error_iff]

end Ensemble
