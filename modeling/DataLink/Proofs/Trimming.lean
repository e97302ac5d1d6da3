import DataLink.Text.Blank
import Mathlib.Data.List.TakeWhile

/-!
# Trimmed texts

White space is what Unicode gives the property White_Space. Trimming takes the longest stretch of
it from either end: what is left has none at its ends, and it is the only such middle of the text.
-/

namespace DataLink

/-! ### White space -/

/-- Of an increasing table, the first two flips bound a range of members. -/
theorem CharSet.contains_cons_cons_iff {first next : Nat} {flips : List Nat} (c : Char)
    (hfirst : first ≤ next) (hnext : ∀ flip ∈ flips, next ≤ flip) :
    CharSet.contains ⟨first :: next :: flips⟩ c = true ↔
      first ≤ c.toNat ∧ c.toNat < next ∨ CharSet.contains ⟨flips⟩ c = true := by
  simp only [CharSet.contains, List.takeWhile_cons, decide_eq_true_eq]
  by_cases hbelow : c.toNat < next
  · have hothers : flips.takeWhile (· ≤ c.toNat) = [] := by
      cases flips with
      | nil => rfl
      | cons flip flips =>
        have := hnext flip List.mem_cons_self
        rw [List.takeWhile_cons, decide_eq_false (by omega), if_neg Bool.false_ne_true]
    rw [hothers, if_neg (Nat.not_le.mpr hbelow)]
    split <;> simp_all
  · rw [if_pos (by omega), if_pos (by omega), List.length_cons, List.length_cons]
    omega

/-- The characters with the property White_Space. -/
def WhiteSpace (c : Char) : Prop :=
  0x9 ≤ c.toNat ∧ c.toNat ≤ 0xd ∨ c.toNat = 0x20 ∨ c.toNat = 0x85 ∨ c.toNat = 0xa0 ∨
    c.toNat = 0x1680 ∨ 0x2000 ≤ c.toNat ∧ c.toNat ≤ 0x200a ∨ c.toNat = 0x2028 ∨ c.toNat = 0x2029 ∨
    c.toNat = 0x202f ∨ c.toNat = 0x205f ∨ c.toNat = 0x3000

/-- Blanks are white space. -/
theorem isBlank_iff (c : Char) : isBlank c = true ↔ WhiteSpace c := by
  have hnone : CharSet.contains ⟨[]⟩ c = false := rfl
  simp (disch := decide) only [isBlank, blanks, CharSet.contains_cons_cons_iff, hnone,
    Bool.false_eq_true, or_false]
  unfold WhiteSpace
  omega

/-- A text of white space. -/
def Blank (text : List Char) : Prop := ∀ c ∈ text, WhiteSpace c

/-- A text without white space at its ends. -/
structure Trimmed (text : List Char) : Prop where
  first : ∀ c ∈ text.head?, ¬ WhiteSpace c
  last : ∀ c ∈ text.getLast?, ¬ WhiteSpace c

variable {before core after text : List Char}

/-- Blank text followed by blank text is blank. -/
theorem Blank.append (hbefore : Blank before) (hafter : Blank after) : Blank (before ++ after) :=
  fun c hc => (List.mem_append.mp hc).elim (hbefore c) (hafter c)

/-- Blank text is blank backwards. -/
theorem Blank.reverse (h : Blank text) : Blank text.reverse :=
  fun c hc => h c (List.mem_reverse.mp hc)

/-! ### One end -/

/-- Blank text in front makes no difference once leading blanks are dropped. -/
theorem dropWhile_isBlank_append (h : Blank before) (text : List Char) :
    (before ++ text).dropWhile isBlank = text.dropWhile isBlank := by
  induction before with
  | nil => rfl
  | cons c before ih =>
    rw [List.cons_append, List.dropWhile_cons_of_pos ((isBlank_iff c).mpr (h c (by simp)))]
    exact ih fun d hd => h d (List.mem_cons_of_mem c hd)

/-- Text that does not begin with white space keeps all its characters. -/
theorem dropWhile_isBlank_eq_self (h : ∀ c ∈ text.head?, ¬ WhiteSpace c) :
    text.dropWhile isBlank = text := by
  cases text with
  | nil => rfl
  | cons c text => exact List.dropWhile_cons_of_neg (mt (isBlank_iff c).mp (h c rfl))

/-- Once leading blanks are dropped, no white space is in front. -/
theorem not_whiteSpace_of_mem_dropWhile :
    ∀ c ∈ (text.dropWhile isBlank).head?, ¬ WhiteSpace c := by
  intro c hc hblank
  have hkept := List.head?_dropWhile_not isBlank text
  rw [Option.mem_def.mp hc] at hkept
  exact Bool.false_ne_true (hkept.symm.trans ((isBlank_iff c).mpr hblank))

/-- The leading blanks of a text are blank. -/
theorem blank_takeWhile (text : List Char) : Blank (text.takeWhile isBlank) :=
  fun c hc => (isBlank_iff c).mp (List.mem_takeWhile_imp hc)

/-! ### Both ends -/

/-- Trimming finds the middle between white space if there is none at its ends. -/
theorem trimBlanks_eq (hbefore : Blank before) (hcore : Trimmed core) (hafter : Blank after) :
    trimBlanks (before ++ core ++ after) = core := by
  by_cases hempty : core = []
  · subst hempty
    have hblank : Blank (before ++ [] ++ after) := by
      rw [List.append_nil]
      exact hbefore.append hafter
    have hnone := dropWhile_isBlank_append hblank []
    rw [List.append_nil, List.dropWhile_nil] at hnone
    rw [trimBlanks, hnone]
    rfl
  · have hfirst : ∀ c ∈ (core ++ after).head?, ¬ WhiteSpace c := by
      cases core with
      | nil => exact absurd rfl hempty
      | cons c core => exact hcore.first
    have hlast : ∀ c ∈ core.reverse.head?, ¬ WhiteSpace c := by
      rw [List.head?_reverse]
      exact hcore.last
    rw [trimBlanks, List.append_assoc, dropWhile_isBlank_append hbefore,
      dropWhile_isBlank_eq_self hfirst, List.reverse_append,
      dropWhile_isBlank_append hafter.reverse, dropWhile_isBlank_eq_self hlast,
      List.reverse_reverse]

/-- Every text is what trimming leaves of it, between white space. -/
theorem exists_trimBlanks (text : List Char) : ∃ before after,
    text = before ++ trimBlanks text ++ after ∧ Blank before ∧ Blank after ∧
      Trimmed (trimBlanks text) := by
  have hleft := List.takeWhile_append_dropWhile (p := isBlank) (l := text)
  generalize hrest : text.dropWhile isBlank = rest at hleft
  have hright := List.takeWhile_append_dropWhile (p := isBlank) (l := rest.reverse)
  have hsplit : rest = trimBlanks text ++ (rest.reverse.takeWhile isBlank).reverse := by
    rw [trimBlanks, hrest, ← List.reverse_append, hright, List.reverse_reverse]
  refine ⟨_, _, ?_, blank_takeWhile text, (blank_takeWhile rest.reverse).reverse, ?_, ?_⟩
  · rw [List.append_assoc, ← hsplit, hleft]
  · intro c hc
    have hhead : c ∈ (text.dropWhile isBlank).head? := by
      rw [hrest, hsplit, List.head?_append, Option.mem_def.mp hc]
      rfl
    exact not_whiteSpace_of_mem_dropWhile c hhead
  · rw [trimBlanks, List.getLast?_reverse]
    exact not_whiteSpace_of_mem_dropWhile

/-- Trimming leaves a trimmed text. -/
theorem trimmed_trimBlanks (text : List Char) : Trimmed (trimBlanks text) := by
  obtain ⟨_, _, -, -, -, h⟩ := exists_trimBlanks text
  exact h

/-- Trimming adds no characters. -/
theorem mem_of_mem_trimBlanks {c : Char} (h : c ∈ trimBlanks text) : c ∈ text := by
  obtain ⟨before, after, hsplit, -⟩ := exists_trimBlanks text
  rw [hsplit]
  exact List.mem_append_left _ (List.mem_append_right _ h)

/-- White space around a text does not matter. -/
theorem trimBlanks_append (hbefore : Blank before) (hafter : Blank after) (text : List Char) :
    trimBlanks (before ++ text ++ after) = trimBlanks text := by
  obtain ⟨left, right, hsplit, hleft, hright, hcore⟩ := exists_trimBlanks text
  have hall : before ++ text ++ after =
      (before ++ left) ++ trimBlanks text ++ (right ++ after) :=
    calc before ++ text ++ after
      _ = before ++ (left ++ trimBlanks text ++ right) ++ after := by rw [← hsplit]
      _ = (before ++ left) ++ trimBlanks text ++ (right ++ after) := by
        simp only [List.append_assoc]
  rw [hall]
  exact trimBlanks_eq (hbefore.append hleft) hcore (hright.append hafter)

/-- What follows a text with no white space at its ends only loses white space at its own end. -/
theorem exists_trimBlanks_append (hbefore : Blank before) (hcore : Trimmed core) (hne : core ≠ [])
    (hafter : Blank after) (text : List Char) : ∃ kept dropped,
    text = kept ++ dropped ∧ Blank dropped ∧
      trimBlanks (before ++ (core ++ text) ++ after) = core ++ kept := by
  have hsplit := List.takeWhile_append_dropWhile (p := isBlank) (l := text.reverse)
  have hdropped := (blank_takeWhile text.reverse).reverse
  have hlast := @not_whiteSpace_of_mem_dropWhile text.reverse
  generalize text.reverse.takeWhile isBlank = dropped at hsplit hdropped
  generalize text.reverse.dropWhile isBlank = kept at hsplit hlast
  have htext : text = kept.reverse ++ dropped.reverse := by
    rw [← List.reverse_append, hsplit, List.reverse_reverse]
  refine ⟨kept.reverse, dropped.reverse, htext, hdropped, ?_⟩
  have htrimmed : Trimmed (core ++ kept.reverse) := by
    constructor
    · cases core with
      | nil => exact absurd rfl hne
      | cons c core => exact hcore.first
    · cases kept with
      | nil =>
        rw [List.reverse_nil, List.append_nil]
        exact hcore.last
      | cons c kept =>
        rw [List.reverse_cons, ← List.append_assoc, List.getLast?_concat]
        exact hlast
  have hall : before ++ (core ++ text) ++ after =
      before ++ (core ++ kept.reverse) ++ (dropped.reverse ++ after) := by
    rw [htext]
    simp only [List.append_assoc]
  rw [hall]
  exact trimBlanks_eq hbefore htrimmed (hdropped.append hafter)

/-- Trimmed texts are those that trimming leaves alone. -/
theorem trimBlanks_eq_self_iff : trimBlanks text = text ↔ Trimmed text := by
  constructor
  · intro h
    rw [← h]
    exact trimmed_trimBlanks text
  · intro h
    have hself := @trimBlanks_eq [] text [] (by simp [Blank]) h (by simp [Blank])
    rwa [List.nil_append, List.append_nil] at hself

end DataLink
