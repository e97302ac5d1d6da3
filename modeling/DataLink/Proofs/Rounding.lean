import DataLink.Number.Format
import Mathlib.Tactic.Ring

/-!
# Rounding to a format

A code is a binade and a significand, and it denotes their product. So every magnitude with few
enough significant bits has a code, and it is rounded to this code, whichever unit it is measured
in. Rounding leads to infinity from the middle on between the largest finite magnitude and the
power of two that would follow it.
-/

namespace DataLink

/-- A quotient is rounded to no less than its whole part. -/
theorem le_roundDiv (tie : Tie) (num den : Nat) : num / den ≤ roundDiv tie num den := by
  cases tie <;> simp only [roundDiv] <;> split_ifs <;> omega

/-- A quotient is rounded to no more than the next whole number. -/
theorem roundDiv_le (tie : Tie) (num den : Nat) : roundDiv tie num den ≤ num / den + 1 := by
  cases tie <;> simp only [roundDiv] <;> split_ifs <;> omega

/-- A quotient is rounded past an odd number from its half-way point on. -/
theorem lt_roundDiv_iff {n num den : Nat} (hodd : n % 2 = 1) (hden : 0 < den) :
    n < roundDiv .toEven num den ↔ (2 * n + 1) * den ≤ 2 * num := by
  have hnum := Nat.div_add_mod' num den
  have hmod := Nat.mod_lt num hden
  have hexpand : (2 * n + 1) * den = 2 * (n * den) + den := by ring
  rw [hexpand]
  rcases Nat.lt_trichotomy (num / den) n with hlt | rfl | hgt
  · have hnext := Nat.mul_le_mul_right den hlt
    rw [Nat.succ_mul] at hnext
    have hround := roundDiv_le .toEven num den
    omega
  · simp only [roundDiv]
    split_ifs <;> omega
  · have hnext := Nat.mul_le_mul_right den hgt
    rw [Nat.succ_mul] at hnext
    have hround := le_roundDiv .toEven num den
    omega

namespace Format

variable {f : Format}

/-- The binade of the largest finite magnitudes. -/
def topBinade (f : Format) : Nat := 2 ^ f.exponentBits - 3

/-- The largest finite magnitude, in quanta. -/
def maxFinite (f : Format) : Nat := (2 ^ (f.fractionBits + 1) - 1) * 2 ^ f.topBinade

/-- The least magnitude that is rounded to infinity, in quanta. -/
def overflow (f : Format) : Nat := (2 ^ (f.fractionBits + 2) - 1) * 2 ^ (f.topBinade - 1)

/-- The format has several binades, and it stores fractions. -/
structure Regular (f : Format) : Prop where
  exponentBits : 2 ≤ f.exponentBits
  fractionBits : 1 ≤ f.fractionBits

/-- Besides an exponent for each binade there is one below them and one for infinity. -/
theorem Regular.two_pow (h : f.Regular) : 2 ^ f.exponentBits = f.topBinade + 3 := by
  have hpow : 2 ^ 2 ≤ 2 ^ f.exponentBits := Nat.pow_le_pow_right (by omega) h.exponentBits
  unfold topBinade
  omega

/-- There is a binade above the lowest one. -/
theorem Regular.topBinade_pos (h : f.Regular) : 0 < f.topBinade := by
  have hpow : 2 ^ 2 ≤ 2 ^ f.exponentBits := Nat.pow_le_pow_right (by omega) h.exponentBits
  unfold topBinade
  omega

/-- Infinity is the code behind the topmost binade. -/
theorem Regular.infinity_eq (h : f.Regular) :
    f.infinity = (f.topBinade + 2) * 2 ^ f.fractionBits := by
  have hpow := h.two_pow
  have hcodes : 2 ^ f.exponentBits - 1 = f.topBinade + 2 := by omega
  rw [infinity, Nat.pow_eq, Nat.pow_eq, hcodes]

/-- Infinity is not the code of zero. -/
theorem Regular.infinity_pos (h : f.Regular) : 0 < f.infinity := by
  rw [h.infinity_eq]
  exact Nat.mul_pos (by omega) (Nat.two_pow_pos _)

/-- The pattern that stands for nil lies behind infinity. -/
theorem infinity_lt_quietNaN (f : Format) : f.infinity < f.quietNaN :=
  Nat.lt_add_of_pos_right (Nat.two_pow_pos _)

/-- The pattern that stands for nil has no sign. -/
theorem Regular.quietNaN_lt_signPlace (h : f.Regular) : f.quietNaN < f.signPlace := by
  have hfraction : 2 ^ (f.fractionBits - 1) < 2 ^ f.fractionBits :=
    Nat.pow_lt_pow_right (by omega) (by have := h.fractionBits; omega)
  rw [quietNaN, h.infinity_eq, signPlace, Nat.pow_eq, Nat.pow_eq, Nat.pow_add, h.two_pow,
    Nat.succ_mul (f.topBinade + 2)]
  omega

/-- Half a unit of the top binade above the largest finite magnitude. -/
theorem Regular.overflow_eq (h : f.Regular) :
    f.overflow = f.maxFinite + 2 ^ (f.topBinade - 1) := by
  obtain ⟨below, hbelow⟩ : ∃ below, f.topBinade = below + 1 :=
    ⟨f.topBinade - 1, by have := h.topBinade_pos; omega⟩
  obtain ⟨units, hunits⟩ : ∃ units, 2 ^ f.fractionBits = units + 1 :=
    ⟨2 ^ f.fractionBits - 1, by have := Nat.two_pow_pos f.fractionBits; omega⟩
  have hfine : 2 ^ (f.fractionBits + 2) - 1 = 4 * units + 3 := by
    rw [Nat.pow_add, hunits]
    omega
  have hcoarse : 2 ^ (f.fractionBits + 1) - 1 = 2 * units + 1 := by
    rw [Nat.pow_add, hunits]
    omega
  rw [overflow, maxFinite, hfine, hcoarse, hbelow, Nat.add_sub_cancel, Nat.pow_succ]
  ring

/-! ### Codes -/

/-- A code is made of a binade and a significand. All binades but the lowest have significands in
the upper half of their range. -/
structure Splits (f : Format) (code binade significand : Nat) : Prop where
  code_eq : code = binade * 2 ^ f.fractionBits + significand
  lt : significand < 2 ^ (f.fractionBits + 1)
  normal : binade = 0 ∨ 2 ^ f.fractionBits ≤ significand

/-- Every code is made of a binade and a significand. -/
theorem exists_splits (f : Format) (code : Nat) :
    ∃ binade significand, f.Splits code binade significand := by
  have hpos := Nat.two_pow_pos f.fractionBits
  have hcode := Nat.div_add_mod' code (2 ^ f.fractionBits)
  have hmod := Nat.mod_lt code hpos
  have htwice : 2 ^ (f.fractionBits + 1) = 2 * 2 ^ f.fractionBits := Nat.pow_succ'
  cases hfield : code / 2 ^ f.fractionBits with
  | zero =>
    rw [hfield] at hcode
    exact ⟨0, code, by omega, by omega, .inl rfl⟩
  | succ binade =>
    rw [hfield, Nat.succ_mul] at hcode
    refine ⟨binade, 2 ^ f.fractionBits + code % 2 ^ f.fractionBits, ?_, ?_, ?_⟩
    · omega
    · omega
    · exact .inr (Nat.le_add_right _ _)

namespace Splits

variable {code binade significand : Nat}

/-- The magnitude of a code is its significand, scaled by its binade. -/
theorem magnitude_eq (h : f.Splits code binade significand) :
    f.magnitude code = significand * 2 ^ binade := by
  have hpos := Nat.two_pow_pos f.fractionBits
  have hlt := h.lt
  rw [Nat.pow_succ'] at hlt
  have hbinade : f.binade code = binade := by
    rw [Format.binade, Nat.pow_eq, h.code_eq, Nat.add_comm, Nat.add_mul_div_right _ _ hpos]
    rcases h.normal with rfl | hnormal
    · have hfield := Nat.div_lt_of_lt_mul (Nat.mul_comm 2 _ ▸ hlt)
      omega
    · have hfield : significand / 2 ^ f.fractionBits = 1 :=
        Nat.div_eq_of_lt_le (by omega) (by omega)
      omega
  rw [Format.magnitude, hbinade, Nat.pow_eq, Nat.pow_eq, h.code_eq, Nat.add_sub_cancel_left]

/-- The finite codes are those of binades up to the topmost. -/
theorem lt_infinity_iff (hf : f.Regular) (h : f.Splits code binade significand) :
    code < f.infinity ↔ binade ≤ f.topBinade := by
  have hlt := h.lt
  rw [Nat.pow_succ'] at hlt
  rw [hf.infinity_eq, h.code_eq]
  constructor
  · intro hcode
    by_contra habove
    have hnormal : 2 ^ f.fractionBits ≤ significand := h.normal.resolve_left (by omega)
    have hmul : (f.topBinade + 1) * 2 ^ f.fractionBits ≤ binade * 2 ^ f.fractionBits :=
      Nat.mul_le_mul_right _ (by omega)
    rw [Nat.add_mul] at hcode hmul
    omega
  · intro hle
    have hmul := Nat.mul_le_mul_right (2 ^ f.fractionBits) hle
    rw [Nat.add_mul]
    omega

/-- Where the leading bit of the magnitude stands. -/
theorem log2_sub (h : f.Splits code binade significand) :
    Nat.log2 (significand * 2 ^ binade) - f.fractionBits = binade := by
  have hlt := h.lt
  rcases h.normal with rfl | hnormal
  · rw [Nat.pow_zero, Nat.mul_one]
    by_cases hzero : significand = 0
    · rw [hzero, Nat.log2_zero, Nat.zero_sub]
    · have hlog := (Nat.log2_lt hzero).mpr hlt
      omega
  · have hpos := Nat.two_pow_pos f.fractionBits
    have hne : significand * 2 ^ binade ≠ 0 :=
      Nat.mul_ne_zero (by omega) (Nat.two_pow_pos _).ne'
    have hlog : Nat.log2 (significand * 2 ^ binade) = f.fractionBits + binade := by
      rw [Nat.log2_eq_iff hne, Nat.pow_add, Nat.add_right_comm, Nat.pow_add _ _ binade]
      exact ⟨Nat.mul_le_mul_right _ hnormal,
        Nat.mul_lt_mul_of_pos_right hlt (Nat.two_pow_pos _)⟩
    omega

end Splits

/-- A magnitude that a code denotes is rounded to this code, in whichever unit it is given. -/
theorem nearest_magnitude (f : Format) (code : Nat) {den : Nat} (hden : 0 < den) :
    f.nearest (f.magnitude code * den) den = min f.infinity code := by
  obtain ⟨binade, significand, h⟩ := f.exists_splits code
  have hunit : 0 < den * 2 ^ binade := Nat.mul_pos hden (Nat.two_pow_pos _)
  have hscaled : significand * 2 ^ binade * den = significand * (den * 2 ^ binade) := by ring
  simp only [nearest, Nat.pow_eq]
  rw [h.magnitude_eq, Nat.mul_div_cancel _ hden, h.log2_sub, hscaled,
    roundDiv_mul_right _ _ hunit, ← h.code_eq]

/-- Only zero has no magnitude. -/
theorem magnitude_eq_zero_iff (f : Format) (code : Nat) : f.magnitude code = 0 ↔ code = 0 := by
  obtain ⟨binade, significand, h⟩ := f.exists_splits code
  have hpos := Nat.two_pow_pos f.fractionBits
  have hcode := h.code_eq
  rw [h.magnitude_eq, Nat.mul_eq_zero, or_iff_left (Nat.two_pow_pos binade).ne']
  constructor
  · intro hzero
    obtain rfl : binade = 0 := h.normal.resolve_right (by omega)
    omega
  · intro hzero
    omega

/-- A magnitude with few enough significant bits has a code. -/
theorem exists_code (hf : f.Regular) {significand binade : Nat}
    (hlt : significand < 2 ^ (f.fractionBits + 1)) (hle : binade ≤ f.topBinade) :
    ∃ code, code < f.infinity ∧ f.magnitude code = significand * 2 ^ binade := by
  induction binade generalizing significand with
  | zero =>
    have h : f.Splits significand 0 significand := ⟨by omega, hlt, .inl rfl⟩
    exact ⟨significand, (h.lt_infinity_iff hf).mpr hle, h.magnitude_eq⟩
  | succ binade ih =>
    by_cases hnormal : 2 ^ f.fractionBits ≤ significand
    · have h : f.Splits _ (binade + 1) significand := ⟨rfl, hlt, .inr hnormal⟩
      exact ⟨_, (h.lt_infinity_iff hf).mpr hle, h.magnitude_eq⟩
    · -- A short significand has room for another bit.
      have hdouble : 2 * significand < 2 ^ (f.fractionBits + 1) := by
        rw [Nat.pow_succ']
        omega
      obtain ⟨code, hcode, hmagnitude⟩ := ih hdouble (by omega)
      refine ⟨code, hcode, ?_⟩
      rw [hmagnitude, Nat.pow_succ']
      ring

/-- Some finite code has the largest finite magnitude. -/
theorem exists_code_maxFinite (hf : f.Regular) :
    ∃ code, code < f.infinity ∧ f.magnitude code = f.maxFinite :=
  exists_code hf (Nat.sub_lt (Nat.two_pow_pos _) Nat.one_pos) (Nat.le_refl _)

/-- No finite code has a larger magnitude. -/
theorem magnitude_le_maxFinite (hf : f.Regular) {code : Nat} (h : code < f.infinity) :
    f.magnitude code ≤ f.maxFinite := by
  obtain ⟨binade, significand, hsplits⟩ := f.exists_splits code
  have hlt := hsplits.lt
  have hle := (hsplits.lt_infinity_iff hf).mp h
  rw [hsplits.magnitude_eq, maxFinite]
  exact Nat.mul_le_mul (by omega) (Nat.pow_le_pow_right (by omega) hle)

/-! ### Overflow -/

/-- Zero is not rounded to infinity. -/
theorem overflow_pos (f : Format) : 0 < f.overflow := by
  have hpow : 1 < 2 ^ (f.fractionBits + 2) := Nat.one_lt_two_pow (by omega)
  exact Nat.mul_pos (Nat.sub_pos_of_lt hpow) (Nat.two_pow_pos _)

/-- A quotient is rounded to a finite code or to infinity. -/
theorem nearest_le_infinity (f : Format) (num den : Nat) : f.nearest num den ≤ f.infinity :=
  Nat.min_le_left _ _

/-- What the binade of a quotient is. -/
theorem binade_spec (f : Format) {num den binade : Nat} (hden : 0 < den)
    (h : Nat.log2 (num / den) - f.fractionBits = binade) :
    num < den * 2 ^ binade * 2 ^ (f.fractionBits + 1) ∧
      (binade = 0 ∨ den * 2 ^ binade * 2 ^ f.fractionBits ≤ num) := by
  have hquotient := Nat.lt_mul_div_succ num hden
  constructor
  · have hlog : num / den + 1 ≤ 2 ^ (binade + (f.fractionBits + 1)) :=
      Nat.le_trans Nat.lt_log2_self (Nat.pow_le_pow_right (by omega) (by omega))
    have hmul := Nat.mul_le_mul_left den hlog
    rw [Nat.mul_assoc, ← Nat.pow_add]
    omega
  · by_cases hzero : binade = 0
    · exact .inl hzero
    · have hne : num / den ≠ 0 := by
        intro hnone
        rw [hnone, Nat.log2_zero] at h
        omega
      have hlog : 2 ^ (binade + f.fractionBits) ≤ num / den :=
        Nat.le_trans (Nat.pow_le_pow_right (by omega) (by omega)) (Nat.log2_self_le hne)
      have hmul := Nat.mul_le_mul_left den hlog
      rw [Nat.mul_assoc, ← Nat.pow_add]
      exact .inr (Nat.le_trans hmul (Nat.mul_div_le num den))

/-- There is no overflow below the top binade. -/
theorem lt_overflow_of_lt (f : Format) {num den binade : Nat} (hlt : binade < f.topBinade)
    (h : num < den * 2 ^ binade * 2 ^ (f.fractionBits + 1)) : num < f.overflow * den := by
  have hpos := Nat.two_pow_pos (f.fractionBits + 1)
  have hfine : 2 ^ (f.fractionBits + 1) ≤ 2 ^ (f.fractionBits + 2) - 1 := by
    rw [Nat.pow_succ 2 (f.fractionBits + 1)]
    omega
  have hunit : 2 ^ binade ≤ 2 ^ (f.topBinade - 1) := Nat.pow_le_pow_right (by omega) (by omega)
  calc num < den * 2 ^ binade * 2 ^ (f.fractionBits + 1) := h
    _ ≤ den * 2 ^ (f.topBinade - 1) * (2 ^ (f.fractionBits + 2) - 1) :=
      Nat.mul_le_mul (Nat.mul_le_mul_left den hunit) hfine
    _ = f.overflow * den := by rw [overflow]; ring

/-- There is nothing but overflow above the top binade. -/
theorem Regular.overflow_le_of_lt (hf : f.Regular) {num den binade : Nat}
    (hlt : f.topBinade < binade) (h : den * 2 ^ binade * 2 ^ f.fractionBits ≤ num) :
    f.overflow * den ≤ num := by
  have htop := hf.topBinade_pos
  have hunit : 2 ^ (f.topBinade - 1 + 2) ≤ 2 ^ binade := Nat.pow_le_pow_right (by omega) (by omega)
  calc f.overflow * den
    _ ≤ 2 ^ (f.fractionBits + 2) * 2 ^ (f.topBinade - 1) * den :=
      Nat.mul_le_mul_right _ (Nat.mul_le_mul_right _ (Nat.sub_le _ _))
    _ = den * 2 ^ (f.topBinade - 1 + 2) * 2 ^ f.fractionBits := by
      rw [Nat.pow_add, Nat.pow_add]
      ring
    _ ≤ den * 2 ^ binade * 2 ^ f.fractionBits :=
      Nat.mul_le_mul_right _ (Nat.mul_le_mul_left den hunit)
    _ ≤ num := h

/-- In the top binade it is a carry that leads to infinity. -/
theorem Regular.carry_iff (hf : f.Regular) {num den : Nat} (hden : 0 < den) :
    2 * 2 ^ f.fractionBits ≤ roundDiv .toEven num (den * 2 ^ f.topBinade) ↔
      f.overflow * den ≤ num := by
  have hpos := Nat.two_pow_pos f.fractionBits
  have htop : f.topBinade = f.topBinade - 1 + 1 := by
    have := hf.topBinade_pos
    omega
  have hodd : (2 * 2 ^ f.fractionBits - 1) % 2 = 1 := by omega
  have hfine : 2 * (2 * 2 ^ f.fractionBits - 1) + 1 = 2 ^ (f.fractionBits + 2) - 1 := by
    rw [Nat.pow_add]
    omega
  have hhalf : (2 ^ (f.fractionBits + 2) - 1) * (den * 2 ^ f.topBinade) =
      2 * (f.overflow * den) := by
    rw [overflow, htop, Nat.pow_succ, Nat.add_sub_cancel]
    ring
  have hcarry := @lt_roundDiv_iff _ num _ hodd (Nat.mul_pos hden (Nat.two_pow_pos f.topBinade))
  rw [hfine, hhalf] at hcarry
  omega

/-- A magnitude is rounded to infinity from the middle on between the largest finite one and the
power of two that would follow it. -/
theorem nearest_eq_infinity_iff (hf : f.Regular) {num den : Nat} (hden : 0 < den) :
    f.nearest num den = f.infinity ↔ f.overflow * den ≤ num := by
  have hpos := Nat.two_pow_pos f.fractionBits
  generalize hbinade : Nat.log2 (num / den) - f.fractionBits = binade
  obtain ⟨hupper, hlower⟩ := f.binade_spec hden hbinade
  have hround := roundDiv_le .toEven num (den * 2 ^ binade)
  have hround' := le_roundDiv .toEven num (den * 2 ^ binade)
  have hquotient := Nat.div_lt_of_lt_mul hupper
  rw [Nat.pow_succ'] at hquotient
  have hcode : f.nearest num den = f.infinity ↔ (f.topBinade + 2) * 2 ^ f.fractionBits ≤
      binade * 2 ^ f.fractionBits + roundDiv .toEven num (den * 2 ^ binade) := by
    simp only [nearest, Nat.pow_eq, hbinade]
    rw [hf.infinity_eq, min_eq_left_iff]
  rw [hcode, Nat.add_mul]
  rcases Nat.lt_trichotomy binade f.topBinade with hlt | rfl | hgt
  · refine iff_of_false ?_ (Nat.not_le.mpr (f.lt_overflow_of_lt hlt hupper))
    have hcodes := Nat.mul_le_mul_right (2 ^ f.fractionBits) hlt
    rw [Nat.succ_mul] at hcodes
    omega
  · rw [← hf.carry_iff hden]
    omega
  · have hnum := hlower.resolve_left (by omega)
    refine iff_of_true ?_ (hf.overflow_le_of_lt hgt hnum)
    have hcodes := Nat.mul_le_mul_right (2 ^ f.fractionBits) hgt
    have hunit : 0 < den * 2 ^ binade := Nat.mul_pos hden (Nat.two_pow_pos _)
    have hfull : 2 ^ f.fractionBits ≤ num / (den * 2 ^ binade) := by
      rw [Nat.le_div_iff_mul_le hunit, Nat.mul_comm]
      exact hnum
    rw [Nat.succ_mul] at hcodes
    omega

end Format

end DataLink
