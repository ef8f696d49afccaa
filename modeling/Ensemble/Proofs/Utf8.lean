import Ensemble.Text.Utf8

/-! # UTF-8: decoding inverts encoding

A character's UTF-8 form is one of the four shapes the decoder accepts, and the decoder reads it
back to the same character: the lead byte falls in the range its length asks for, the second
byte of a three- or four-byte form passes the narrowed range after `E0`, `ED`, `F0` or `F4`
(no overlong form, no surrogate, nothing above `U+10FFFF`), and the payload bits reassemble the
scalar value.

* `decodeFrom_one` … `decodeFrom_four`: one step of the decoder on each well-formed shape;
* `decodeFrom_encodeChar`: a character's bytes decode to that character;
* `decode_encode`: every string survives its UTF-8 bytes;
* `length_encode`: a string's UTF-8 form has `utf8ByteSize` bytes.

Conversely each shape the decoder reads is the form of the character it reads it as
(`utf8EncodeChar_char2` …), so the decoder accepts nothing but encodings:

* `decodeFrom_eq_ok`: a successful decoding read the forms of the characters it returned, by
  induction along the decoder's own cases;
* `encode_of_decode`, `decode_eq_ok_iff`: a string decoded from bytes encodes back to exactly
  those bytes. -/

namespace Ensemble.Utf8

theorem toNat_ofNat_of_lt {n : Nat} (h : n < 256) : (UInt8.ofNat n).toNat = n := by
  simp [Nat.mod_eq_of_lt h]

/-! ### One step of the decoder on each well-formed shape -/

theorem decodeFrom_one {i : Nat} {acc : List Char} {b : UInt8} (rest : List UInt8)
    (hb : b.toNat < 0x80) :
    decodeFrom i acc (b :: rest) = decodeFrom (i + 1) (Char.ofNat b.toNat :: acc) rest := by
  rw [decodeFrom.eq_def]
  simp [UInt8.lt_iff_toNat_lt, hb]

theorem decodeFrom_two {i : Nat} {acc : List Char} {b c : UInt8} (rest : List UInt8)
    (hb : 0xC2 ≤ b.toNat ∧ b.toNat ≤ 0xDF) (hc : 0x80 ≤ c.toNat ∧ c.toNat ≤ 0xBF) :
    decodeFrom i acc (b :: c :: rest) = decodeFrom (i + 2) (char2 b c :: acc) rest := by
  have h1 : ¬ b.toNat < 0x80 := by omega
  rw [decodeFrom.eq_def]
  simp [UInt8.lt_iff_toNat_lt, UInt8.le_iff_toNat_le, isTail, h1, hb, hc]

theorem decodeFrom_three {i : Nat} {acc : List Char} {b c d : UInt8} (rest : List UInt8)
    (hb : 0xE0 ≤ b.toNat ∧ b.toNat ≤ 0xEF) (hc : secondFits b c = true)
    (hd : 0x80 ≤ d.toNat ∧ d.toNat ≤ 0xBF) :
    decodeFrom i acc (b :: c :: d :: rest) = decodeFrom (i + 3) (char3 b c d :: acc) rest := by
  have h1 : ¬ b.toNat < 0x80 := by omega
  have h2 : ¬ (0xC2 ≤ b.toNat ∧ b.toNat ≤ 0xDF) := by omega
  rw [decodeFrom.eq_def]
  simp [UInt8.lt_iff_toNat_lt, UInt8.le_iff_toNat_le, isTail, h1, h2, hb, hc, hd]

theorem decodeFrom_four {i : Nat} {acc : List Char} {b c d e : UInt8} (rest : List UInt8)
    (hb : 0xF0 ≤ b.toNat ∧ b.toNat ≤ 0xF4) (hc : secondFits b c = true)
    (hd : 0x80 ≤ d.toNat ∧ d.toNat ≤ 0xBF) (he : 0x80 ≤ e.toNat ∧ e.toNat ≤ 0xBF) :
    decodeFrom i acc (b :: c :: d :: e :: rest)
      = decodeFrom (i + 4) (char4 b c d e :: acc) rest := by
  have h1 : ¬ b.toNat < 0x80 := by omega
  have h2 : ¬ (0xC2 ≤ b.toNat ∧ b.toNat ≤ 0xDF) := by omega
  have h3 : ¬ (0xE0 ≤ b.toNat ∧ b.toNat ≤ 0xEF) := by omega
  rw [decodeFrom.eq_def]
  simp [UInt8.lt_iff_toNat_lt, UInt8.le_iff_toNat_le, isTail, h1, h2, h3, hb, hc, hd, he]

/-- The narrowed second-byte ranges, as conditions on the byte values. -/
theorem secondFits_of {b c : UInt8}
    (hE0 : b.toNat = 0xE0 → 0xA0 ≤ c.toNat) (hED : b.toNat = 0xED → c.toNat ≤ 0x9F)
    (hF0 : b.toNat = 0xF0 → 0x90 ≤ c.toNat) (hF4 : b.toNat = 0xF4 → c.toNat ≤ 0x8F)
    (hc : 0x80 ≤ c.toNat ∧ c.toNat ≤ 0xBF) : secondFits b c = true := by
  simp only [secondFits, isTail, ← UInt8.toNat_inj, UInt8.le_iff_toNat_le, UInt8.reduceToNat]
  split <;> simp_all

/-! ### Characters and strings -/

/-- A character's bytes decode to that character. The four cases are the four lengths of the
form; the scalar value `v` is valid, so a three-byte form after `ED` stays below the
surrogates and a four-byte form after `F4` stays below `U+110000`. -/
theorem decodeFrom_encodeChar (i : Nat) (acc : List Char) (c : Char) (rest : List UInt8) :
    decodeFrom i acc (String.utf8EncodeChar c ++ rest)
      = decodeFrom (i + c.utf8Size) (c :: acc) rest := by
  have hv := c.valid
  simp only [UInt32.isValidChar, Nat.isValidChar] at hv
  have hc : c = Char.ofNat c.val.toNat := (Char.ofNat_toNat c).symm
  unfold String.utf8EncodeChar Char.utf8Size
  simp only [UInt32.le_iff_toNat_le, UInt32.toNat_ofNatLT]
  generalize c.val.toNat = v at hv hc
  split
  · rw [List.singleton_append, decodeFrom_one _ (by rw [toNat_ofNat_of_lt (by omega)]; omega),
      toNat_ofNat_of_lt (by omega), ← hc]
  split
  · rw [List.cons_append, List.singleton_append,
      decodeFrom_two _ (by rw [toNat_ofNat_of_lt (by omega)]; omega)
        (by rw [toNat_ofNat_of_lt (by omega)]; omega)]
    congr 2
    rw [hc, char2, low6, toNat_ofNat_of_lt (by omega), toNat_ofNat_of_lt (by omega)]
    congr 1
    omega
  split
  · rw [List.cons_append, List.cons_append, List.singleton_append,
      decodeFrom_three _ (by rw [toNat_ofNat_of_lt (by omega)]; omega)
        (secondFits_of ?_ ?_ ?_ ?_ ?_) (by rw [toNat_ofNat_of_lt (by omega)]; omega)]
    · congr 2
      rw [hc, char3, low6, low6, toNat_ofNat_of_lt (by omega), toNat_ofNat_of_lt (by omega),
        toNat_ofNat_of_lt (by omega)]
      congr 1
      omega
    all_goals
      simp only [toNat_ofNat_of_lt (show v / 4096 % 16 + 224 < 256 by omega),
        toNat_ofNat_of_lt (show v / 64 % 64 + 128 < 256 by omega)]
      omega
  · rw [List.cons_append, List.cons_append, List.cons_append, List.singleton_append,
      decodeFrom_four _ (by rw [toNat_ofNat_of_lt (by omega)]; omega)
        (secondFits_of ?_ ?_ ?_ ?_ ?_) (by rw [toNat_ofNat_of_lt (by omega)]; omega)
        (by rw [toNat_ofNat_of_lt (by omega)]; omega)]
    · congr 2
      rw [hc, char4, low6, low6, low6, toNat_ofNat_of_lt (by omega), toNat_ofNat_of_lt (by omega),
        toNat_ofNat_of_lt (by omega), toNat_ofNat_of_lt (by omega)]
      congr 1
      omega
    all_goals
      simp only [toNat_ofNat_of_lt (show v / 262144 % 8 + 240 < 256 by omega),
        toNat_ofNat_of_lt (show v / 4096 % 64 + 128 < 256 by omega)]
      omega

theorem decodeFrom_flatMap (i : Nat) (acc cs : List Char) (rest : List UInt8) :
    decodeFrom i acc (cs.flatMap String.utf8EncodeChar ++ rest)
      = decodeFrom (i + (cs.flatMap String.utf8EncodeChar).length) (cs.reverse ++ acc) rest := by
  induction cs generalizing i acc with
  | nil => simp
  | cons c cs ih =>
    rw [List.flatMap_cons, List.append_assoc, decodeFrom_encodeChar, ih]
    simp [Nat.add_assoc]

theorem decode_encode (s : String) : decode (encode s) = .ok s := by
  have h := decodeFrom_flatMap 0 [] s.toList []
  rw [List.append_nil, List.append_nil] at h
  rw [decode, encode, h, decodeFrom, List.reverse_reverse]
  exact congrArg Except.ok String.ofList_toList

theorem length_encode (s : String) : (encode s).length = s.utf8ByteSize := by
  rw [← String.size_toByteArray, ← String.utf8Encode_toList, List.utf8Encode]
  simp [encode]

/-- A string of ASCII characters takes one byte per character. -/
theorem utf8ByteSize_ofList_of_ascii {cs : List Char} (h : ∀ c ∈ cs, c.val ≤ 127) :
    (String.ofList cs).utf8ByteSize = cs.length := by
  rw [← length_encode, encode, String.toList_ofList]
  induction cs with
  | nil => rfl
  | cons c cs ih =>
    rw [List.flatMap_cons, List.length_append, String.length_utf8EncodeChar,
      Char.utf8Size_eq_one_iff.mpr (h c List.mem_cons_self),
      ih (fun d hd => h d (List.mem_cons_of_mem c hd)), List.length_cons, Nat.add_comm]

/-- A slash before a run of one ASCII character takes a byte per character. -/
theorem utf8ByteSize_slash_replicate {c : Char} (hc : c.val ≤ 127) (n : Nat) :
    (String.ofList ('/' :: List.replicate n c)).utf8ByteSize = n + 1 := by
  rw [utf8ByteSize_ofList_of_ascii, List.length_cons, List.length_replicate]
  intro d hd
  rcases List.mem_cons.mp hd with rfl | hd
  · decide
  · rw [List.eq_of_mem_replicate hd]
    exact hc

/-! ### Decoding accepts only encodings -/

theorem val_ofNat_of_valid {v : Nat} (h : v < 0xD800 ∨ (0xDFFF < v ∧ v < 0x110000)) :
    (Char.ofNat v).val.toNat = v := by
  have hv : v.isValidChar := by simp only [Nat.isValidChar]; omega
  rw [Char.ofNat, dif_pos hv]
  rfl

theorem ofNat_eq_of_toNat {b : UInt8} {n : Nat} (h : n = b.toNat) : UInt8.ofNat n = b := by
  subst h
  simp

theorem isTail_iff {b : UInt8} : isTail b = true ↔ 0x80 ≤ b.toNat ∧ b.toNat ≤ 0xBF := by
  simp [isTail, UInt8.le_iff_toNat_le]

/-- The narrowed second-byte ranges that `secondFits` admits, as conditions on the byte values;
the converse of `secondFits_of`. -/
theorem secondFits_spec {b c : UInt8} (h : secondFits b c = true) :
    0x80 ≤ c.toNat ∧ c.toNat ≤ 0xBF ∧ (b.toNat = 0xE0 → 0xA0 ≤ c.toNat) ∧
      (b.toNat = 0xED → c.toNat ≤ 0x9F) ∧ (b.toNat = 0xF0 → 0x90 ≤ c.toNat) ∧
      (b.toNat = 0xF4 → c.toNat ≤ 0x8F) := by
  unfold secondFits isTail at h
  -- one case per lead byte with a narrowed range, and the plain continuation range otherwise
  repeat' split at h
  all_goals
    simp only [Bool.and_eq_true, decide_eq_true_eq, UInt8.le_iff_toNat_le, ← UInt8.toNat_inj,
      UInt8.reduceToNat] at *
    omega

theorem utf8EncodeChar_one {b : UInt8} (hb : b.toNat < 0x80) :
    String.utf8EncodeChar (Char.ofNat b.toNat) = [b] := by
  have hv : (Char.ofNat b.toNat).val.toNat = b.toNat := val_ofNat_of_valid (by omega)
  unfold String.utf8EncodeChar
  rw [hv, if_pos (by omega), UInt8.ofNat_toNat]

/-- A two-byte shape is the form of its character: the scalar value lies in `80`–`7FF`, and its
two parts are the payload bits of the two bytes. -/
theorem utf8EncodeChar_char2 {b c : UInt8} (hb : 0xC2 ≤ b.toNat ∧ b.toNat ≤ 0xDF)
    (hc : 0x80 ≤ c.toNat ∧ c.toNat ≤ 0xBF) : String.utf8EncodeChar (char2 b c) = [b, c] := by
  have hv : (char2 b c).val.toNat = (b.toNat % 32) * 64 + c.toNat % 64 := by
    rw [char2, low6]
    exact val_ofNat_of_valid (by omega)
  unfold String.utf8EncodeChar
  rw [hv, if_neg (by omega), if_pos (by omega)]
  simp only [List.cons.injEq, and_true]
  refine ⟨ofNat_eq_of_toNat ?_, ofNat_eq_of_toNat ?_⟩ <;> omega

/-- A three-byte shape is the form of its character: the narrowed second byte after `E0` keeps the
value at `800` or above, and after `ED` below the surrogates. -/
theorem utf8EncodeChar_char3 {b c d : UInt8} (hb : 0xE0 ≤ b.toNat ∧ b.toNat ≤ 0xEF)
    (hc : secondFits b c = true) (hd : 0x80 ≤ d.toNat ∧ d.toNat ≤ 0xBF) :
    String.utf8EncodeChar (char3 b c d) = [b, c, d] := by
  obtain ⟨hc1, hc2, hE0, hED, -, -⟩ := secondFits_spec hc
  have hv : (char3 b c d).val.toNat =
      (b.toNat % 16) * 4096 + c.toNat % 64 * 64 + d.toNat % 64 := by
    rw [char3, low6, low6]
    exact val_ofNat_of_valid (by omega)
  unfold String.utf8EncodeChar
  rw [hv, if_neg (by omega), if_neg (by omega), if_pos (by omega)]
  simp only [List.cons.injEq, and_true]
  refine ⟨ofNat_eq_of_toNat ?_, ofNat_eq_of_toNat ?_, ofNat_eq_of_toNat ?_⟩ <;> omega

/-- A four-byte shape is the form of its character: the narrowed second byte after `F0` keeps the
value at `10000` or above, and after `F4` at `10FFFF` or below. -/
theorem utf8EncodeChar_char4 {b c d e : UInt8} (hb : 0xF0 ≤ b.toNat ∧ b.toNat ≤ 0xF4)
    (hc : secondFits b c = true) (hd : 0x80 ≤ d.toNat ∧ d.toNat ≤ 0xBF)
    (he : 0x80 ≤ e.toNat ∧ e.toNat ≤ 0xBF) :
    String.utf8EncodeChar (char4 b c d e) = [b, c, d, e] := by
  obtain ⟨hc1, hc2, -, -, hF0, hF4⟩ := secondFits_spec hc
  have hv : (char4 b c d e).val.toNat =
      (b.toNat % 8) * 262144 + c.toNat % 64 * 4096 + d.toNat % 64 * 64 + e.toNat % 64 := by
    rw [char4, low6, low6, low6]
    exact val_ofNat_of_valid (by omega)
  unfold String.utf8EncodeChar
  rw [hv, if_neg (by omega), if_neg (by omega), if_neg (by omega)]
  simp only [List.cons.injEq, and_true]
  refine ⟨ofNat_eq_of_toNat ?_, ofNat_eq_of_toNat ?_, ofNat_eq_of_toNat ?_,
    ofNat_eq_of_toNat ?_⟩ <;> omega

/-- A successful decoding read, after the characters it held, the forms of the characters it
adds. The cases follow the decoder: one per shape it reads, and every other case is a refusal. -/
theorem decodeFrom_eq_ok {i : Nat} {acc cs : List Char} {bs : List UInt8} :
    decodeFrom i acc bs = .ok cs →
      ∃ ds, cs = acc.reverse ++ ds ∧ ds.flatMap String.utf8EncodeChar = bs := by
  fun_induction decodeFrom i acc bs with
  | case1 i acc =>
    intro h
    cases h
    exact ⟨[], by simp, rfl⟩
  | case2 i acc b rest hb ih =>
    intro h
    obtain ⟨ds, rfl, hds⟩ := ih h
    have hb' : b.toNat < 0x80 := by simpa [UInt8.lt_iff_toNat_lt] using hb
    exact ⟨Char.ofNat b.toNat :: ds, by simp, by
      rw [List.flatMap_cons, utf8EncodeChar_one hb', hds]; rfl⟩
  | case4 i acc b _ hb c rest hc ih =>
    intro h
    obtain ⟨ds, rfl, hds⟩ := ih h
    have hb' : 0xC2 ≤ b.toNat ∧ b.toNat ≤ 0xDF := by simpa [UInt8.le_iff_toNat_le] using hb
    exact ⟨char2 b c :: ds, by simp, by
      rw [List.flatMap_cons, utf8EncodeChar_char2 hb' (isTail_iff.mp hc), hds]; rfl⟩
  | case8 i acc b _ _ hb c hc d rest hd ih =>
    intro h
    obtain ⟨ds, rfl, hds⟩ := ih h
    have hb' : 0xE0 ≤ b.toNat ∧ b.toNat ≤ 0xEF := by simpa [UInt8.le_iff_toNat_le] using hb
    exact ⟨char3 b c d :: ds, by simp, by
      rw [List.flatMap_cons, utf8EncodeChar_char3 hb' hc (isTail_iff.mp hd), hds]; rfl⟩
  | case14 i acc b _ _ _ hb c hc d hd e rest he ih =>
    intro h
    obtain ⟨ds, rfl, hds⟩ := ih h
    have hb' : 0xF0 ≤ b.toNat ∧ b.toNat ≤ 0xF4 := by simpa [UInt8.le_iff_toNat_le] using hb
    exact ⟨char4 b c d e :: ds, by simp, by
      rw [List.flatMap_cons, utf8EncodeChar_char4 hb' hc (isTail_iff.mp hd) (isTail_iff.mp he),
        hds]; rfl⟩
  | _ => nofun

/-- A string decoded from bytes encodes back to exactly those bytes. -/
theorem encode_of_decode {bs : List UInt8} {s : String} (h : decode bs = .ok s) :
    encode s = bs := by
  rw [decode] at h
  cases hcs : decodeFrom 0 [] bs with
  | error e =>
    rw [hcs] at h
    cases h
  | ok cs =>
    rw [hcs] at h
    cases h
    obtain ⟨ds, rfl, hds⟩ := decodeFrom_eq_ok hcs
    simpa [encode] using hds

/-- Decoding and encoding are inverse: bytes decode to a string exactly when they are its form. -/
theorem decode_eq_ok_iff {bs : List UInt8} {s : String} : decode bs = .ok s ↔ encode s = bs :=
  ⟨encode_of_decode, fun h => h ▸ decode_encode s⟩

end Ensemble.Utf8
