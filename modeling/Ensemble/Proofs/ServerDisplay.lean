import Ensemble.Proofs.PathGrammar
import Ensemble.Proofs.Requests
import Ensemble.Client.Config
import Mathlib.Data.List.TakeDrop
import Mathlib.Data.List.TakeWhile

/-! # Connect strings written back

A connect string is written back as its servers separated by `,`, then its chroot. A server is
written `host:port`, or `[host]:port` when the host holds `:`, so that the split at the last `:`
does not cut the host. The printer has no other escape, and the reader takes text the printer
cannot reproduce: a bracketed host may start with a blank or with `[`, and a bare host may hold
both `:` and `]`. Written back, such a host reads as another host or not at all: `a]:b:1` names
the host `a]:b` and is written `[a]:b]:1`, whose port text `b]:1` is no number.

`ServerAddress.Redisplayable` says which hosts survive: a host holding `:` must hold no `]`, any
other host must start with neither a blank nor `[`. The main lemmas:

* `ServerAddress.parse_display_iff`: a server reads back from its written form exactly when it is
  redisplayable;
* `ConnectString.parse_display`: a parsed connect string is written so that its entries are the
  servers' written forms and its chroot comes back as it is;
* `display_reparses_iff`: a parsed connect string reads back from its written form exactly when
  each of its servers is redisplayable, and whenever it reads back at all, its chroot is kept.
-/

namespace Ensemble

/-! ## Blanks at the ends -/

namespace Blank

theorem isBlank_of_isDigit {c : Char} (h : c.isDigit = true) : isBlank c = false := by
  simp only [Char.isDigit, Bool.and_eq_true, decide_eq_true_eq] at h
  have h0 : '0'.val = 48 := rfl
  have h9 : '9'.val = 57 := rfl
  have hnat : 48 ≤ c.toNat ∧ c.toNat ≤ 57 := by
    simp only [Char.toNat, UInt32.le_iff_toNat_le, h0, h9] at h ⊢
    exact ⟨by simpa using h.1, by simpa using h.2⟩
  simp only [isBlank, ranges, List.any_cons, List.any_nil, Bool.or_false, Bool.or_eq_false_iff,
    Bool.and_eq_false_iff, decide_eq_false_iff_not, Nat.not_le]
  omega

/-- Past a character that is not blank, the leading blanks of a list are those of its front. -/
theorem dropWhile_append_cons {front back : List Char} {x : Char} (hx : isBlank x = false) :
    (front ++ x :: back).dropWhile isBlank = front.dropWhile isBlank ++ x :: back := by
  rw [List.dropWhile_append]
  split
  · rename_i hnil
    rw [List.isEmpty_iff.mp hnil, List.dropWhile_cons, hx]
    rfl
  · rfl

/-- A list that ends in a character that is not blank is trimmed at its front only, and only up
to the first character that is not blank. -/
theorem trimChars_append_cons {front body : List Char} {x y : Char} (hx : isBlank x = false)
    (hy : isBlank y = false) :
    trimChars (front ++ x :: (body ++ [y])) = front.dropWhile isBlank ++ x :: (body ++ [y]) := by
  unfold trimChars
  rw [dropWhile_append_cons hx]
  have hrev : (front.dropWhile isBlank ++ x :: (body ++ [y])).reverse =
      y :: (front.dropWhile isBlank ++ x :: body).reverse := by
    simp
  rw [hrev, List.dropWhile_cons, hy]
  simp

/-- What trimming keeps is taken from the list. -/
theorem trimChars_subset (cs : List Char) : trimChars cs ⊆ cs := by
  intro c hc
  unfold trimChars at hc
  rw [List.mem_reverse] at hc
  have hrev := List.dropWhile_subset isBlank hc
  rw [List.mem_reverse] at hrev
  exact List.dropWhile_subset isBlank hrev

/-- A list with a character that is not blank does not trim to nothing. -/
theorem trimChars_ne_nil {cs : List Char} {x : Char} (hx : x ∈ cs) (hb : isBlank x = false) :
    trimChars cs ≠ [] := by
  unfold trimChars
  rw [ne_eq, List.reverse_eq_nil_iff, List.dropWhile_eq_nil_iff]
  intro hall
  -- every character of the list is blank: those dropped, and those kept as well
  rw [← List.takeWhile_append_dropWhile (p := isBlank) (l := cs)] at hx
  rcases List.mem_append.mp hx with hx | hx
  · rw [List.mem_takeWhile_imp hx] at hb
    cases hb
  · rw [hall x (List.mem_reverse.mpr hx)] at hb
    cases hb

end Blank

/-! ## Reading a server entry -/

/-- A span that stops at an element splits the list there: every element before it passes. -/
theorem span_eq_cons_iff {α : Type} {p : α → Bool} {l front back : List α} {x : α} :
    l.span p = (front, x :: back) ↔
      l = front ++ x :: back ∧ (∀ y ∈ front, p y = true) ∧ p x = false := by
  rw [List.span_eq_takeWhile_dropWhile, Prod.mk.injEq]
  constructor
  · rintro ⟨htake, hdrop⟩
    have hhead := List.head_dropWhile_not p (l := l) (by simp [hdrop])
    simp only [hdrop, List.head_cons] at hhead
    refine ⟨?_, fun y hy => ?_, hhead⟩
    · rw [← htake, ← hdrop, List.takeWhile_append_dropWhile]
    · rw [← htake] at hy
      exact List.mem_takeWhile_imp hy
  · rintro ⟨rfl, hfront, hx⟩
    rw [List.takeWhile_append_of_pos hfront, List.dropWhile_append_of_pos hfront,
      List.takeWhile_cons_of_neg (by simp [hx]), List.dropWhile_cons_of_neg (by simp [hx])]
    simp

namespace ServerAddress

/-- The text of a port as written: core's decimal digits of its number. -/
theorem toList_decimal (n : Nat) : (Decimal.ofNat n).toList = Nat.toDigits 10 n :=
  Nat.toList_repr

theorem isDigit_of_mem_decimal {n : Nat} {d : Char} (hd : d ∈ (Decimal.ofNat n).toList) :
    d.isDigit = true := by
  rw [toList_decimal] at hd
  exact Nat.isDigit_of_mem_toDigits (by decide) (by decide) hd

/-- A port written in decimal reads back as itself. -/
theorem portOf?_decimal (n : UInt16) : portOf? (Decimal.ofNat n.toNat).toList = some n := by
  have hvalue : (Decimal.ofNat n.toNat).toList.foldl
      (fun acc d => 10 * acc + (d.toNat - '0'.toNat)) 0 = n.toNat := by
    rw [toList_decimal]
    exact foldl_toDigits (by decide) (fun m hm => Nat.toNat_digitChar_sub_48_of_lt_ten hm) _
  have hdigits : (Decimal.ofNat n.toNat).toList.all Char.isDigit = true :=
    List.all_eq_true.mpr fun d hd => isDigit_of_mem_decimal hd
  have hne : (Decimal.ofNat n.toNat).toList ≠ [] := by
    rw [toList_decimal]
    exact Nat.toDigits_ne_nil
  obtain ⟨d, ds, hds⟩ := List.exists_cons_of_ne_nil hne
  -- the first digit is no sign, so the whole text is read as digits
  have hplus : d ≠ '+' := by
    intro hd
    have := isDigit_of_mem_decimal (n := n.toNat) (d := d) (by rw [hds]; exact List.mem_cons_self)
    rw [hd] at this
    cases this
  rw [hds] at hvalue hdigits
  unfold portOf?
  rw [hds]
  split
  · rename_i hd
    cases hd
    exact absurd rfl hplus
  · have hlt : n.toNat < 65536 := n.toNat_lt
    simp only [hdigits, hvalue, hlt, List.isEmpty_cons, Bool.not_true, Bool.or_false,
      Bool.false_eq_true, if_false, if_true]
    simp

/-- The last `sep` of a list whose tail holds none is the one before the tail. -/
theorem splitAtLast_append {sep : Char} {before after : List Char} (h : sep ∉ after) :
    splitAtLast sep (before ++ sep :: after) = some (before, after) := by
  have hspan : (before ++ sep :: after).reverse.span (· ≠ sep) =
      (after.reverse, sep :: before.reverse) := by
    rw [span_eq_cons_iff]
    refine ⟨by simp, fun y hy => ?_, by simp⟩
    have hy' : y ∈ after := List.mem_reverse.mp hy
    have hne : y ≠ sep := fun hys => h (hys ▸ hy')
    simpa using hne
  unfold splitAtLast
  rw [hspan]
  simp

/-- A bracketed host with no `]` in it is read up to its `]`, and a `:` after the `]` starts the
port text. -/
theorem split_bracketed {host num : List Char} (hh : ']' ∉ host) :
    split ('[' :: (host ++ ']' :: ':' :: num)) = .ok (host, some num) := by
  have hspan : (host ++ ']' :: ':' :: num).span (· ≠ ']') = (host, ']' :: ':' :: num) := by
    rw [span_eq_cons_iff]
    refine ⟨rfl, fun y hy => ?_, by simp⟩
    have hne : y ≠ ']' := fun hys => hh (hys ▸ hy)
    simpa using hne
  simp only [split, hspan]

/-- A bracketed host is what stands before the first `]`. -/
theorem split_bracketed_host {rest host : List Char} {num : Option (List Char)}
    (h : split ('[' :: rest) = .ok (host, num)) :
    ∃ after, rest = host ++ ']' :: after ∧ ']' ∉ host := by
  simp only [split] at h
  split at h
  · cases h
  · rename_i front c after hspan
    cases h
    obtain ⟨hrest, hfront, hc⟩ := span_eq_cons_iff.mp hspan
    have hc' : c = ']' := by simpa using hc
    subst hc'
    exact ⟨after, hrest, fun hmem => by simpa using hfront _ hmem⟩

/-- An entry that does not start with `[` splits at its last `:`. -/
theorem split_bare {host num : List Char} (hhead : host.head? ≠ some '[') (hnum : ':' ∉ num) :
    split (host ++ ':' :: num) = .ok (host, some num) := by
  cases host with
  | nil =>
    have hsplit : splitAtLast ':' ([] ++ ':' :: num) = some ([], num) := splitAtLast_append hnum
    rw [List.nil_append] at hsplit
    simp [split, hsplit]
  | cons c rest =>
    have hc : c ≠ '[' := fun hc => hhead (by simp [hc])
    have hsplit : splitAtLast ':' (c :: rest ++ ':' :: num) = some (c :: rest, num) :=
      splitAtLast_append hnum
    rw [List.cons_append] at hsplit
    simp [split, hc, hsplit]

/-- A server read from an entry has the host its trimmed text splits into, and it is not
empty. -/
theorem split_of_parse {e : String} {a : ServerAddress} (h : parse e = .ok a) :
    ∃ num, split (Blank.trimChars e.toList) = .ok (a.host.toList, num) ∧ a.host.toList ≠ [] := by
  unfold parse at h
  simp only [bind, Except.bind, pure, Except.pure, throw, throwThe, MonadExceptOf.throw] at h
  split at h
  · cases h
  · split at h
    · cases h
    · rename_i v hsplit
      split at h
      · cases h
      · rename_i hhost
        have hne : v.1 ≠ [] := by simpa using hhost
        -- both ways of reading the port keep the host as split
        split at h
        · cases h
          exact ⟨v.2, by simpa using hsplit, by simpa using hne⟩
        · split at h
          · cases h
            exact ⟨v.2, by simpa using hsplit, by simpa using hne⟩
          · cases h

/-- An entry whose trimmed text splits into a host and a port that reads is that server. -/
theorem parse_of_split {e : String} {host text : List Char} {n : UInt16}
    (hsplit : split (Blank.trimChars e.toList) = .ok (host, some text)) (hhost : host ≠ [])
    (hport : portOf? text = some n) : parse e = .ok ⟨String.ofList host, n⟩ := by
  have hcs : Blank.trimChars e.toList ≠ [] := by
    intro hnil
    rw [hnil] at hsplit
    cases hsplit
  unfold parse
  simp [bind, Except.bind, pure, Except.pure, hcs, hsplit, hhost, hport]

/-! ## A server written back -/

/-- A server that reads back from its written form: a host holding `:` is written between
brackets and must hold no `]`; any other host is written bare and must start with neither a blank
nor `[`. -/
def Redisplayable (a : ServerAddress) : Prop :=
  if ':' ∈ a.host.toList then ']' ∉ a.host.toList
  else ∃ c rest, a.host.toList = c :: rest ∧ Blank.isBlank c = false ∧ c ≠ '['

/-- The written form of a server: the host between brackets when it holds `:`, then `:` and the
port in decimal. -/
theorem toList_display (a : ServerAddress) :
    a.display.toList =
      if ':' ∈ a.host.toList then
        '[' :: (a.host.toList ++ ']' :: ':' :: (Decimal.ofNat a.portNumber.toNat).toList)
      else a.host.toList ++ ':' :: (Decimal.ofNat a.portNumber.toNat).toList := by
  unfold display
  by_cases hc : ':' ∈ a.host.toList <;> simp [hc]

/-- A character that is no decimal digit is not in a written port. -/
theorem not_mem_decimal {n : Nat} {c : Char} (hc : c.isDigit = false) :
    c ∉ (Decimal.ofNat n).toList := by
  intro hmem
  rw [isDigit_of_mem_decimal hmem] at hc
  cases hc

/-- A written port ends in a digit, which is no blank. -/
theorem decimal_eq_concat (n : Nat) :
    ∃ body y, (Decimal.ofNat n).toList = body ++ [y] ∧ Blank.isBlank y = false := by
  have hne : (Decimal.ofNat n).toList ≠ [] := by
    rw [toList_decimal]
    exact Nat.toDigits_ne_nil
  refine ⟨(Decimal.ofNat n).toList.dropLast, (Decimal.ofNat n).toList.getLast hne,
    (List.dropLast_concat_getLast hne).symm, Blank.isBlank_of_isDigit ?_⟩
  exact isDigit_of_mem_decimal (List.getLast_mem hne)

/-- A host holding `:` reads back from its bracketed form exactly when it holds no `]`: the
reader takes the host up to the first `]`. -/
theorem parse_display_bracketed {a : ServerAddress} (hc : ':' ∈ a.host.toList) :
    parse a.display = .ok a ↔ ']' ∉ a.host.toList := by
  obtain ⟨body, y, hport, hy⟩ := decimal_eq_concat a.portNumber.toNat
  have htrim : Blank.trimChars a.display.toList =
      '[' :: (a.host.toList ++ ']' :: ':' :: (Decimal.ofNat a.portNumber.toNat).toList) := by
    have h : Blank.trimChars ([] ++ '[' :: ((a.host.toList ++ ']' :: ':' :: body) ++ [y])) =
        [].dropWhile Blank.isBlank ++ '[' :: ((a.host.toList ++ ']' :: ':' :: body) ++ [y]) :=
      Blank.trimChars_append_cons (by decide) hy
    rw [toList_display, if_pos hc, hport]
    simpa using h
  constructor
  · intro h
    obtain ⟨num, hsplit, -⟩ := split_of_parse h
    rw [htrim] at hsplit
    obtain ⟨after, -, hclose⟩ := split_bracketed_host hsplit
    exact hclose
  · intro hclose
    have hsplit : ServerAddress.split ('[' :: (a.host.toList ++ ']' :: ':' ::
        (Decimal.ofNat a.portNumber.toNat).toList)) =
        .ok (a.host.toList, some (Decimal.ofNat a.portNumber.toNat).toList) :=
      split_bracketed hclose
    rw [← htrim] at hsplit
    have hne : a.host.toList ≠ [] := List.ne_nil_of_mem hc
    rw [parse_of_split hsplit hne (portOf?_decimal a.portNumber)]
    simp

/-- Stripping leading blanks keeps a list that is not empty only when it starts with no
blank. -/
theorem eq_cons_of_dropWhile_eq_self {h : List Char} (hdrop : h.dropWhile Blank.isBlank = h)
    (hne : h ≠ []) : ∃ c rest, h = c :: rest ∧ Blank.isBlank c = false := by
  obtain ⟨c, rest, rfl⟩ := List.exists_cons_of_ne_nil hne
  refine ⟨c, rest, rfl, ?_⟩
  cases hc : Blank.isBlank c with
  | false => rfl
  | true =>
    -- a blank first character is dropped, and the list gets shorter
    rw [List.dropWhile_cons_of_pos (by simp [hc])] at hdrop
    have hlen := (List.dropWhile_sublist Blank.isBlank (l := rest)).length_le
    rw [hdrop, List.length_cons] at hlen
    omega

/-- A host without `:` whose leading blanks drop to a `[` does not read back from its bare form:
read as bracketed, it would run to a `]` past the `:` that follows it, or stop inside the trimmed
text, which is shorter than the host. -/
theorem split_ne_of_open {h rest num : List Char} {port : Option (List Char)}
    (hc : ':' ∉ h) (hdrop : h.dropWhile Blank.isBlank = '[' :: rest) :
    split ('[' :: (rest ++ ':' :: num)) ≠ .ok (h, port) := by
  intro hsplit
  obtain ⟨after, hrest, -⟩ := split_bracketed_host hsplit
  rcases List.append_eq_append_iff.mp hrest with ⟨cs, hhost, hcol⟩ | ⟨cs, hrest', -⟩
  · -- the `]` falls after the `:`, so the `:` is in the host
    cases cs with
    | nil => simp at hcol
    | cons x cs =>
      obtain ⟨rfl, -⟩ := List.cons.inj hcol
      exact hc (by rw [hhost]; simp)
  · -- the `]` falls inside the trimmed text, which the host would then outgrow
    have hlen := (List.dropWhile_sublist Blank.isBlank (l := h)).length_le
    rw [hdrop, hrest'] at hlen
    simp only [List.length_cons, List.length_append] at hlen
    omega

/-- A host without `:` reads back from its bare form exactly when it starts with neither a blank,
which trimming drops, nor `[`, which opens a bracketed host. -/
theorem parse_display_bare {a : ServerAddress} (hc : ':' ∉ a.host.toList) :
    parse a.display = .ok a ↔
      ∃ c rest, a.host.toList = c :: rest ∧ Blank.isBlank c = false ∧ c ≠ '[' := by
  obtain ⟨body, y, hport, hy⟩ := decimal_eq_concat a.portNumber.toNat
  have hcolon : ':' ∉ (Decimal.ofNat a.portNumber.toNat).toList := not_mem_decimal (by decide)
  have htrim : Blank.trimChars a.display.toList = a.host.toList.dropWhile Blank.isBlank ++
      ':' :: (Decimal.ofNat a.portNumber.toNat).toList := by
    have h : Blank.trimChars (a.host.toList ++ ':' :: (body ++ [y])) =
        a.host.toList.dropWhile Blank.isBlank ++ ':' :: (body ++ [y]) :=
      Blank.trimChars_append_cons (by decide) hy
    rw [toList_display, if_neg hc, hport]
    exact h
  constructor
  · intro hparse
    obtain ⟨num, hsplit, hne⟩ := split_of_parse hparse
    rw [htrim] at hsplit
    cases hdrop : a.host.toList.dropWhile Blank.isBlank with
    | nil =>
      -- only blanks stand before the `:`, and the host read is empty
      have hbare : split ([] ++ ':' :: (Decimal.ofNat a.portNumber.toNat).toList) =
          .ok ([], some (Decimal.ofNat a.portNumber.toNat).toList) :=
        split_bare (by simp) hcolon
      rw [hdrop, hbare] at hsplit
      obtain ⟨hhost, -⟩ := Prod.mk.inj (Except.ok.inj hsplit)
      exact absurd hhost.symm hne
    | cons c rest =>
      rw [hdrop] at hsplit
      by_cases hopen : c = '['
      · subst hopen
        exact absurd (by simpa using hsplit) (split_ne_of_open hc hdrop)
      · have hbare : split ((c :: rest) ++ ':' :: (Decimal.ofNat a.portNumber.toNat).toList) =
            .ok (c :: rest, some (Decimal.ofNat a.portNumber.toNat).toList) :=
          split_bare (by simp [hopen]) hcolon
        rw [hbare] at hsplit
        obtain ⟨hhost, -⟩ := Prod.mk.inj (Except.ok.inj hsplit)
        rw [← hhost] at hdrop
        obtain ⟨c', rest', hcons, hblank⟩ := eq_cons_of_dropWhile_eq_self hdrop (by simp)
        obtain ⟨hcc, -⟩ := List.cons.inj hcons
        rw [← hcc] at hblank
        exact ⟨c, rest, hhost.symm, hblank, hopen⟩
  · rintro ⟨c, rest, hh, hb, hopen⟩
    have hdrop : a.host.toList.dropWhile Blank.isBlank = a.host.toList := by
      rw [hh, List.dropWhile_cons_of_neg (by simp [hb])]
    have hsplit : split (a.host.toList ++ ':' :: (Decimal.ofNat a.portNumber.toNat).toList) =
        .ok (a.host.toList, some (Decimal.ofNat a.portNumber.toNat).toList) :=
      split_bare (by rw [hh]; simp [hopen]) hcolon
    rw [hdrop] at htrim
    rw [← htrim] at hsplit
    rw [parse_of_split hsplit (by simp [hh]) (portOf?_decimal a.portNumber)]
    simp

/-- A server reads back from its written form exactly when it is redisplayable. -/
theorem parse_display_iff (a : ServerAddress) : parse a.display = .ok a ↔ a.Redisplayable := by
  unfold Redisplayable
  by_cases hc : ':' ∈ a.host.toList
  · rw [if_pos hc]
    exact parse_display_bracketed hc
  · rw [if_neg hc]
    exact parse_display_bare hc

/-- Every character of a server's written form is a character of its host, a bracket, the `:`
or a digit of its port. -/
theorem mem_display {a : ServerAddress} {x : Char} (hx : x ∈ a.display.toList) :
    x ∈ a.host.toList ∨ x = '[' ∨ x = ']' ∨ x = ':' ∨ x.isDigit = true := by
  rw [toList_display] at hx
  split at hx
  · simp only [List.mem_cons, List.mem_append] at hx
    rcases hx with rfl | (hx | rfl | rfl | hx)
    · exact .inr (.inl rfl)
    · exact .inl hx
    · exact .inr (.inr (.inl rfl))
    · exact .inr (.inr (.inr (.inl rfl)))
    · exact .inr (.inr (.inr (.inr (isDigit_of_mem_decimal hx))))
  · simp only [List.mem_cons, List.mem_append] at hx
    rcases hx with hx | rfl | hx
    · exact .inl hx
    · exact .inr (.inr (.inr (.inl rfl)))
    · exact .inr (.inr (.inr (.inr (isDigit_of_mem_decimal hx))))

theorem colon_mem_display (a : ServerAddress) : ':' ∈ a.display.toList := by
  rw [toList_display]
  split <;> simp

/-- The host of a server read from an entry is taken from the entry. -/
theorem host_subset_of_parse {e : String} {a : ServerAddress} (h : parse e = .ok a) :
    a.host.toList ⊆ e.toList := by
  obtain ⟨num, hsplit, -⟩ := split_of_parse h
  refine List.Subset.trans ?_ (Blank.trimChars_subset e.toList)
  generalize Blank.trimChars e.toList = cs at hsplit
  generalize a.host.toList = host at hsplit ⊢
  unfold split at hsplit
  split at hsplit
  · -- a bracketed host stands between the `[` and the first `]`
    rename_i rest
    have hfold : split ('[' :: rest) = .ok (host, num) := by simpa [split] using hsplit
    obtain ⟨after, hrest, -⟩ := split_bracketed_host hfold
    rw [hrest]
    intro x hx
    exact List.mem_cons_of_mem _ (List.mem_append_left _ hx)
  · split at hsplit
    · rename_i host' text hlast
      cases hsplit
      unfold splitAtLast at hlast
      split at hlast
      · cases hlast
      · rename_i after c before hspan
        cases hlast
        obtain ⟨hrev, -⟩ := span_eq_cons_iff.mp hspan
        intro x hx
        rw [← List.reverse_reverse cs, hrev]
        simp [List.mem_reverse.mp hx]
    · cases hsplit
      exact List.Subset.refl _

end ServerAddress

/-! ## A connect string written back -/

/-- Every piece of a split is taken from the list. -/
theorem subset_of_mem_splitOn {a : Char} : ∀ {l x : List Char}, x ∈ l.splitOn a → x ⊆ l
  | [], x, h => by
    rw [List.splitOn_nil, List.mem_singleton] at h
    subst h
    exact List.nil_subset _
  | d :: l, x, h => by
    rw [List.splitOn_cons_eq_if_modifyHead] at h
    obtain ⟨p, ps, hps⟩ := List.exists_cons_of_ne_nil (List.splitOn_ne_nil a l)
    split at h
    · rcases List.mem_cons.mp h with rfl | h
      · exact List.nil_subset _
      · exact List.Subset.trans (subset_of_mem_splitOn h) (List.subset_cons_self _ _)
    · rw [hps, List.modifyHead_cons] at h
      rcases List.mem_cons.mp h with rfl | h
      · -- the first piece takes `d` in front of the first piece of the rest
        have hp : p ⊆ l := subset_of_mem_splitOn (by rw [hps]; exact List.mem_cons_self)
        exact List.cons_subset_cons _ hp
      · have hx : x ⊆ l := subset_of_mem_splitOn (by rw [hps]; exact List.mem_cons_of_mem _ h)
        exact List.Subset.trans hx (List.subset_cons_self _ _)

/-- A traversal gives back its own list exactly when it gives back each element. -/
theorem mapM_eq_ok_self_iff {α ε : Type} {f : α → Except ε α} :
    ∀ {l : List α}, l.mapM f = .ok l ↔ ∀ a ∈ l, f a = .ok a
  | [] => by simp [pure, Except.pure]
  | a :: l => by
    rw [List.mapM_cons]
    constructor
    · intro h
      obtain ⟨b, hb, h⟩ := Except.bind_eq_ok.mp h
      obtain ⟨bs, hbs, h⟩ := Except.bind_eq_ok.mp h
      obtain ⟨rfl, rfl⟩ := List.cons.inj (Except.ok.inj h)
      intro x hx
      rcases List.mem_cons.mp hx with rfl | hx
      · exact hb
      · exact mapM_eq_ok_self_iff.mp hbs x hx
    · intro h
      have hl : l.mapM f = .ok l := mapM_eq_ok_self_iff.mpr fun x hx => h x (List.mem_cons_of_mem _ hx)
      rw [h a List.mem_cons_self]
      simp only [bind, Except.bind, hl]
      rfl

/-- Each element a traversal gives back comes from an element of the list. -/
theorem exists_of_mem_mapM {α β ε : Type} {f : α → Except ε β} :
    ∀ {l : List α} {r : List β}, l.mapM f = .ok r → ∀ b ∈ r, ∃ a ∈ l, f a = .ok b
  | [], r, h => by
    intro b hb
    simp only [List.mapM_nil, pure, Except.pure, Except.ok.injEq] at h
    subst h
    cases hb
  | a :: l, r, h => by
    rw [List.mapM_cons] at h
    obtain ⟨b, hb, h⟩ := Except.bind_eq_ok.mp h
    obtain ⟨bs, hbs, h⟩ := Except.bind_eq_ok.mp h
    cases Except.ok.inj h
    intro x hx
    rcases List.mem_cons.mp hx with rfl | hx
    · exact ⟨a, List.mem_cons_self, hb⟩
    · obtain ⟨y, hy, hfy⟩ := exists_of_mem_mapM hbs x hx
      exact ⟨y, List.mem_cons_of_mem _ hy, hfy⟩

/-- A traversal of a list that is not empty gives back a list that is not empty. -/
theorem mapM_ne_nil {α β ε : Type} {f : α → Except ε β} {l : List α} {r : List β}
    (hl : l ≠ []) (h : l.mapM f = .ok r) : r ≠ [] := by
  obtain ⟨a, l, rfl⟩ := List.exists_cons_of_ne_nil hl
  rw [List.mapM_cons] at h
  obtain ⟨b, -, h⟩ := Except.bind_eq_ok.mp h
  obtain ⟨bs, -, h⟩ := Except.bind_eq_ok.mp h
  cases Except.ok.inj h
  exact List.cons_ne_nil b bs

/-- A property of the separator and of every piece holds of every element of the joined list. -/
theorem forall_mem_intercalate {P : Char → Prop} {sep : Char} (hsep : P sep) :
    ∀ {pieces : List (List Char)}, (∀ l ∈ pieces, ∀ x ∈ l, P x) →
      ∀ x ∈ [sep].intercalate pieces, P x
  | [], _ => by simp
  | [l], h => by simpa using h l List.mem_cons_self
  | l :: l' :: pieces, h => by
    intro x hx
    rw [List.intercalate_cons_cons] at hx
    rcases List.mem_append.mp hx with hx | hx
    · rcases List.mem_append.mp hx with hx | hx
      · exact h l List.mem_cons_self x hx
      · rw [List.mem_singleton.mp hx]
        exact hsep
    · exact forall_mem_intercalate hsep (fun m hm => h m (List.mem_cons_of_mem _ hm)) x hx

/-- A path other than the root is a slash followed by more. -/
theorem toList_of_validate {p : String} (hv : Path.validate p = .ok ()) (hroot : p ≠ "/") :
    ∃ rest, p.toList = '/' :: rest ∧ rest ≠ [] := by
  have hvalid : Path.isValid p = true := by
    unfold Path.validate at hv
    unfold Path.isValid
    split at hv
    · rename_i hcheck
      rw [hcheck]
    · cases hv
  obtain ⟨rest, hp, ht⟩ := Path.tail_of_isValid hvalid hroot
  exact ⟨rest, hp, ht.ne_nil⟩

namespace ConnectString

/-- What reading guarantees of a connect string: at least one server, no host holding `,` or
`/`, and a chroot that is none or a path other than the root. -/
structure WellFormed (c : ConnectString) : Prop where
  servers_ne_nil : c.servers ≠ []
  hosts : ∀ a ∈ c.servers, ',' ∉ a.host.toList ∧ '/' ∉ a.host.toList
  chroot : c.chroot = none ∨ ∃ p, c.chroot = some p ∧ Path.validate p = .ok () ∧ p ≠ "/"

/-- The servers of a connect string are read from its entries before the first `/`, the blank
ones skipped, and there is at least one. -/
theorem servers_of_parse {s : String} {c : ConnectString} (h : parse s = .ok c) :
    (((s.toList.span (· ≠ '/')).1.splitOn ',').filter fun e => !(Blank.trimChars e).isEmpty).mapM
        (fun e => ServerAddress.parse (String.ofList e)) = .ok c.servers ∧ c.servers ≠ [] := by
  unfold parse at h
  simp only [bind, Except.bind, pure, Except.pure, throw, throwThe, MonadExceptOf.throw] at h
  split at h
  · cases h
  · rename_i v hv
    split at h
    · cases h
    · rename_i hne
      have hv' : v ≠ [] := by simpa using hne
      -- each way of reading the chroot keeps the servers read
      split at h
      · cases h
        exact ⟨hv, hv'⟩
      · cases h
        exact ⟨hv, hv'⟩
      · split at h
        · cases h
          exact ⟨hv, hv'⟩
        · cases h

theorem wellFormed_of_parse {s : String} {c : ConnectString} (h : parse s = .ok c) :
    c.WellFormed := by
  obtain ⟨hservers, hne⟩ := servers_of_parse h
  refine ⟨hne, fun a ha => ?_, ConnectString.chroot_of_parse h⟩
  obtain ⟨e, he, hparse⟩ := exists_of_mem_mapM hservers a ha
  have hpiece : e ∈ (s.toList.span (· ≠ '/')).1.splitOn ',' := (List.mem_filter.mp he).1
  have hsub : a.host.toList ⊆ e := by simpa using ServerAddress.host_subset_of_parse hparse
  refine ⟨fun hc => Path.not_mem_of_mem_splitOn hpiece (hsub hc), fun hs => ?_⟩
  -- the entries stand before the first `/`
  have hmem := subset_of_mem_splitOn hpiece (hsub hs)
  rw [List.span_eq_takeWhile_dropWhile] at hmem
  simpa using List.mem_takeWhile_imp hmem

/-- A connect string is written as its servers' written forms joined by `,`, then its chroot. -/
theorem toList_display (c : ConnectString) :
    c.display.toList =
      [','].intercalate (c.servers.map fun a => a.display.toList) ++ (c.chroot.getD "").toList := by
  simp [display, String.toList_intercalate]
  rfl

/-- Written, a well-formed connect string has its servers before the first `/` and its chroot
from there on. -/
theorem span_display {c : ConnectString} (hc : c.WellFormed) :
    c.display.toList.span (· ≠ '/') =
      ([','].intercalate (c.servers.map fun a => a.display.toList), (c.chroot.getD "").toList) := by
  have hservers : ∀ x ∈ [','].intercalate (c.servers.map fun a => a.display.toList),
      decide (x ≠ '/') = true := by
    refine forall_mem_intercalate (by decide) fun l hl x hx => ?_
    obtain ⟨a, ha, rfl⟩ := List.mem_map.mp hl
    rcases ServerAddress.mem_display hx with hx | rfl | rfl | rfl | hx
    · have hslash := (hc.hosts a ha).2
      exact decide_eq_true fun h => hslash (h ▸ hx)
    all_goals first
      | decide
      | exact decide_eq_true fun h => by rw [h] at hx; cases hx
  rw [toList_display]
  rcases hc.chroot with hnone | ⟨p, hp, hv, hroot⟩
  · rw [hnone, Option.getD_none, String.toList_empty, List.append_nil,
      List.span_eq_takeWhile_dropWhile, List.takeWhile_eq_self_iff.mpr hservers,
      List.dropWhile_eq_nil_iff.mpr hservers]
  · obtain ⟨rest, hrest, -⟩ := toList_of_validate hv hroot
    rw [hp, Option.getD_some, hrest]
    exact span_eq_cons_iff.mpr ⟨rfl, hservers, by decide⟩

/-- Written and read back, a well-formed connect string reads each server's written form, and
gives a connect string exactly when these read, with its chroot as it was. -/
theorem parse_display {c c' : ConnectString} (hc : c.WellFormed) :
    parse c.display = .ok c' ↔
      c.servers.mapM (fun a => ServerAddress.parse a.display) = .ok c'.servers ∧
        c'.chroot = c.chroot := by
  have hsplit : ([','].intercalate (c.servers.map fun a => a.display.toList)).splitOn ',' =
      c.servers.map fun a => a.display.toList := by
    refine List.splitOn_intercalate ',' (fun l hl => ?_) (by simpa using hc.servers_ne_nil)
    obtain ⟨a, ha, rfl⟩ := List.mem_map.mp hl
    intro hmem
    rcases ServerAddress.mem_display hmem with hx | h | h | h | h
    · exact (hc.hosts a ha).1 hx
    all_goals cases h
  have hfilter : (c.servers.map fun a => a.display.toList).filter
      (fun e => !(Blank.trimChars e).isEmpty) = c.servers.map fun a => a.display.toList := by
    refine List.filter_eq_self.mpr fun e he => ?_
    obtain ⟨a, -, rfl⟩ := List.mem_map.mp he
    simpa using Blank.trimChars_ne_nil (ServerAddress.colon_mem_display a) (by decide)
  have hentries : (c.servers.map fun a => a.display.toList).mapM
      (fun e => ServerAddress.parse (String.ofList e)) =
        c.servers.mapM (fun a => ServerAddress.parse a.display) := by
    have hfun : ((fun e => ServerAddress.parse (String.ofList e)) ∘
        fun a : ServerAddress => a.display.toList) = fun a => ServerAddress.parse a.display := by
      funext a
      simp
    rw [List.mapM_map, hfun]
  unfold parse
  simp only [bind, Except.bind, pure, Except.pure, throw, throwThe, MonadExceptOf.throw]
  rw [span_display hc]
  simp only [hsplit, hfilter, hentries]
  cases hm : c.servers.mapM (fun a => ServerAddress.parse a.display) with
  | error e => simp
  | ok v =>
    have hv : v ≠ [] := mapM_ne_nil hc.servers_ne_nil hm
    simp only [List.isEmpty_iff, hv, if_false, Except.ok.injEq]
    rcases hc.chroot with hnone | ⟨p, hp, hvalid, hroot⟩
    · rw [hnone]
      cases c'
      simp [eq_comm]
    · -- the chroot is a path other than the root, so it is checked again and kept
      obtain ⟨rest, hrest, hne⟩ := toList_of_validate hvalid hroot
      rw [hp, Option.getD_some, hrest]
      split
      · rename_i heq
        cases heq
      · rename_i heq
        cases heq
        exact absurd rfl hne
      · rw [← hrest, String.ofList_toList, hvalid]
        cases c'
        simp [eq_comm]

end ConnectString

/-- A connect string read from some text reads back from its written form exactly when each of
its servers is redisplayable, and whenever its written form reads back at all, its chroot comes
back as it was. A server on its own reads back from its written form exactly when it is
redisplayable: a host holding `:`, written between brackets, holds no `]`, and any other host
starts with neither a blank nor `[`. -/
theorem display_reparses_iff {s : String} {c : ConnectString}
    (h : ConnectString.parse s = .ok c) :
    (ConnectString.parse c.display = .ok c ↔ ∀ a ∈ c.servers, a.Redisplayable) ∧
    (∀ c', ConnectString.parse c.display = .ok c' → c'.chroot = c.chroot) ∧
    ∀ a : ServerAddress, ServerAddress.parse a.display = .ok a ↔ a.Redisplayable := by
  have hc := ConnectString.wellFormed_of_parse h
  refine ⟨?_, fun c' hback => ((ConnectString.parse_display hc).mp hback).2,
    ServerAddress.parse_display_iff⟩
  rw [ConnectString.parse_display hc, mapM_eq_ok_self_iff]
  simp only [and_true]
  exact forall₂_congr fun a _ => ServerAddress.parse_display_iff a

theorem display_reparses_iff_two_servers :
    ConnectString.parse "zk1,[::1]:2888/app" =
        .ok ⟨[⟨"zk1", 2181⟩, ⟨"::1", 2888⟩], some "/app"⟩ ∧
      ((ConnectString.parse (ConnectString.display ⟨[⟨"zk1", 2181⟩, ⟨"::1", 2888⟩], some "/app"⟩) =
          .ok ⟨[⟨"zk1", 2181⟩, ⟨"::1", 2888⟩], some "/app"⟩ ↔
        ∀ a ∈ [(⟨"zk1", 2181⟩ : ServerAddress), ⟨"::1", 2888⟩], a.Redisplayable) ∧
      (∀ c', ConnectString.parse (ConnectString.display
          ⟨[⟨"zk1", 2181⟩, ⟨"::1", 2888⟩], some "/app"⟩) = .ok c' → c'.chroot = some "/app") ∧
      ∀ a : ServerAddress, ServerAddress.parse a.display = .ok a ↔ a.Redisplayable) :=
  have h : ConnectString.parse "zk1,[::1]:2888/app" =
      .ok ⟨[⟨"zk1", 2181⟩, ⟨"::1", 2888⟩], some "/app"⟩ := rfl
  ⟨h, display_reparses_iff h⟩

/-- A bare host may hold both `:` and `]`. Read from `a]:b:1`, the host `a]:b` is written
`[a]:b]:1`, which reads as the host `a` followed by the port text `b]:1`: no number. -/
theorem bracket_in_host_not_redisplayed :
    ConnectString.parse "a]:b:1" = .ok ⟨[⟨"a]:b", 1⟩], none⟩ ∧
      ConnectString.display ⟨[⟨"a]:b", 1⟩], none⟩ = "[a]:b]:1" ∧
      ConnectString.parse "[a]:b]:1" = .error (.badPort "[a]:b]:1") :=
  ⟨rfl, rfl, rfl⟩

end Ensemble
