import DataLink.Proofs.Doubles
import DataLink.Proofs.RoundingInterval

/-!
# Rounding keeps the order

Of two quotients the larger one is rounded to a code that is no smaller, whether both lie in one
binade or the larger one lies in a higher binade. As codes are in the order of the magnitudes that
they denote, the reciprocals of positive numbers are in the reverse order, also after rounding.
-/

namespace DataLink

variable {n num num' den den' : Nat}

/-- A quotient is rounded past an even number from beyond its half-way point on. -/
theorem lt_roundDiv_iff_of_even (heven : n % 2 = 0) (hden : 0 < den) :
    n < roundDiv .toEven num den ↔ (2 * n + 1) * den < 2 * num := by
  have hnum := Nat.div_add_mod' num den
  have hmod := Nat.mod_lt num hden
  have hexpand : (2 * n + 1) * den = 2 * (n * den) + den := by ring
  rw [hexpand]
  rcases Nat.lt_trichotomy (num / den) n with hlt | rfl | hgt
  · have hnext := Nat.mul_le_mul_right den hlt
    rw [Nat.succ_mul] at hnext
    have hround := roundDiv_le .toEven num den
    omega
  · simp only [roundDiv]
    split_ifs <;> omega
  · have hnext := Nat.mul_le_mul_right den hgt
    rw [Nat.succ_mul] at hnext
    have hround := le_roundDiv .toEven num den
    omega

/-- A larger numerator is rounded to an integer that is no smaller. -/
theorem roundDiv_mono (hden : 0 < den) (h : num ≤ num') :
    roundDiv .toEven num den ≤ roundDiv .toEven num' den := by
  by_contra hgt
  have hpast := Nat.not_le.mp hgt
  rcases Nat.mod_two_eq_zero_or_one (roundDiv .toEven num' den) with heven | hodd
  · rw [lt_roundDiv_iff_of_even heven hden] at hpast
    exact Nat.lt_irrefl _ ((lt_roundDiv_iff_of_even heven hden).mpr (by omega))
  · rw [lt_roundDiv_iff hodd hden] at hpast
    exact Nat.lt_irrefl _ ((lt_roundDiv_iff hodd hden).mpr (by omega))

/-- The unit in which a quotient is measured does not matter. -/
theorem roundDiv_mul_mul_right (tie : Tie) (num den : Nat) {c : Nat} (hc : 0 < c) :
    roundDiv tie (num * c) (den * c) = roundDiv tie num den := by
  have htwice : 2 * (num % den * c) = 2 * (num % den) * c := by ring
  simp only [roundDiv, Nat.mul_div_mul_right _ _ hc, Nat.mul_mod_mul_right, htwice,
    Nat.mul_lt_mul_right hc]

namespace Format

variable {f : Format}

/-- Greater codes have greater magnitudes. -/
theorem magnitude_strictMono (f : Format) : StrictMono f.magnitude :=
  strictMono_nat_of_lt_succ f.magnitude_lt_succ

/-- Rounding a quotient does not depend on how it is written as a fraction. -/
theorem nearest_mul_mul_right (f : Format) (num den : Nat) {c : Nat} (hc : 0 < c) :
    f.nearest (num * c) (den * c) = f.nearest num den := by
  have hunit (binade : Nat) : den * c * 2 ^ binade = den * 2 ^ binade * c := by ring
  simp only [nearest, Nat.pow_eq, Nat.mul_div_mul_right _ _ hc, hunit,
    roundDiv_mul_mul_right _ _ _ hc]

/-- In its own binade a quotient is rounded at most to the first code of the next one. -/
theorem roundDiv_le_of_binade {binade : Nat} (hden : 0 < den)
    (h : num < den * 2 ^ binade * 2 ^ (f.fractionBits + 1)) :
    roundDiv .toEven num (den * 2 ^ binade) ≤ 2 ^ (f.fractionBits + 1) := by
  have hunit : 0 < den * 2 ^ binade := Nat.mul_pos hden (Nat.two_pow_pos _)
  rw [Nat.mul_comm] at h
  calc roundDiv .toEven num (den * 2 ^ binade)
    _ ≤ roundDiv .toEven (2 ^ (f.fractionBits + 1) * (den * 2 ^ binade)) (den * 2 ^ binade) :=
      roundDiv_mono hunit (Nat.le_of_lt h)
    _ = 2 ^ (f.fractionBits + 1) := roundDiv_mul_right _ _ hunit

/-- In its own binade a quotient is rounded at least to the first code of this binade. -/
theorem le_roundDiv_of_binade {binade : Nat} (hden : 0 < den)
    (h : den * 2 ^ binade * 2 ^ f.fractionBits ≤ num) :
    2 ^ f.fractionBits ≤ roundDiv .toEven num (den * 2 ^ binade) := by
  have hunit : 0 < den * 2 ^ binade := Nat.mul_pos hden (Nat.two_pow_pos _)
  rw [Nat.mul_comm] at h
  calc 2 ^ f.fractionBits
    _ ≤ num / (den * 2 ^ binade) := (Nat.le_div_iff_mul_le hunit).mpr h
    _ ≤ roundDiv .toEven num (den * 2 ^ binade) := le_roundDiv _ _ _

/-- A larger numerator is rounded to a code that is no smaller. -/
theorem nearest_le_nearest (hden : 0 < den) (h : num ≤ num') :
    f.nearest num den ≤ f.nearest num' den := by
  generalize hbinade : Nat.log2 (num / den) - f.fractionBits = binade
  generalize hbinade' : Nat.log2 (num' / den) - f.fractionBits = binade'
  obtain ⟨hupper, hlower⟩ := f.binade_spec hden hbinade
  obtain ⟨hupper', hlower'⟩ := f.binade_spec hden hbinade'
  have hle : binade ≤ binade' :=
    le_of_binade_bounds (hlower.imp_right fun hnum => Nat.le_trans hnum h) hupper'
  rw [nearest_of_binade_bounds hden hlower hupper, nearest_of_binade_bounds hden hlower' hupper']
  apply min_le_min_left
  rcases Nat.eq_or_lt_of_le hle with rfl | hlt
  · have hround := roundDiv_mono (Nat.mul_pos hden (Nat.two_pow_pos binade)) h
    omega
  · have hround := roundDiv_le_of_binade hden hupper
    have hround' := le_roundDiv_of_binade hden (hlower'.resolve_left (by omega))
    have hnext := Nat.mul_le_mul_right (2 ^ f.fractionBits) hlt
    rw [Nat.succ_mul] at hnext
    rw [Nat.pow_succ] at hround
    omega

/-- Of two quotients the larger one is rounded to a code that is no smaller. -/
theorem nearest_mono (hden : 0 < den) (hden' : 0 < den') (h : num * den' ≤ num' * den) :
    f.nearest num den ≤ f.nearest num' den' := by
  calc f.nearest num den
    _ = f.nearest (num * den') (den * den') := (f.nearest_mul_mul_right num den hden').symm
    _ ≤ f.nearest (num' * den) (den * den') := nearest_le_nearest (Nat.mul_pos hden hden') h
    _ = f.nearest (num' * den) (den' * den) := by rw [Nat.mul_comm den]
    _ = f.nearest num' den' := f.nearest_mul_mul_right num' den' hden

end Format

namespace Binary64

variable {x y : Binary64}

/-- Numbers are ordered by size as their codes are. -/
theorem quanta_le_quanta_iff : x.quanta ≤ y.quanta ↔ x.code ≤ y.code :=
  (Format.magnitude_strictMono _).le_iff_le

/-- One is some quanta. -/
theorem perUnit_pos : 0 < perUnit := by decide +kernel

/-- A greater number is no less after it was scaled and rounded. -/
theorem roundScaled_mono (scale : Nat) (h : x.code ≤ y.code) :
    x.roundScaled scale ≤ y.roundScaled scale :=
  roundDiv_mono perUnit_pos (Nat.mul_le_mul_right scale (quanta_le_quanta_iff.mpr h))

/-- A finite number above zero. -/
structure Positive (x : Binary64) : Prop where
  finite : x.isFinite = true
  sign : x.isNegative = false
  code_pos : 0 < x.code

/-- A finite number that is not zero or less is positive. -/
theorem positive_of_not_le_zero (hfinite : x.isFinite = true) (h : x.le zero = false) :
    x.Positive := by
  have hzero : zero.rank = 0 := by decide
  have hrank : 0 < x.rank := by
    simpa [le, isNaN_of_isFinite hfinite, isNaN_of_isFinite isFinite_zero, hzero] using h
  have hsign : x.isNegative = false := by
    by_contra hnegative
    rw [rank, if_pos (Bool.eq_true_of_not_eq_false hnegative)] at hrank
    omega
  rw [rank, hsign, if_neg Bool.false_ne_true] at hrank
  exact ⟨hfinite, hsign, by omega⟩

/-- Positive numbers are in the order of their codes. -/
theorem Positive.le_iff (hx : x.Positive) (hy : y.Positive) : x.le y = true ↔ x.code ≤ y.code := by
  simp only [le, rank, isNaN_of_isFinite hx.finite, isNaN_of_isFinite hy.finite, hx.sign, hy.sign,
    Bool.not_false, Bool.true_and, Bool.false_eq_true, if_false, decide_eq_true_eq, Int.ofNat_le]

/-- The reciprocal of a positive number is a rounded quotient. -/
theorem Positive.code_one_div (h : x.Positive) :
    (one.div x).code = Format.binary64.nearest (one.quanta * perUnit) x.quanta := by
  have hone : one.isFinite = true := by decide +kernel
  simp only [div, isNaN_of_isFinite hone, isNaN_of_isFinite h.finite, isInfinite_of_isFinite hone,
    isInfinite_of_isFinite h.finite, Bool.or_self, Bool.false_eq_true, if_false,
    if_neg h.code_pos.ne', code_ofQuotient]

/-- The larger of two positive numbers has no larger reciprocal. -/
theorem Positive.code_one_div_le (hx : x.Positive) (hy : y.Positive) (h : x.code ≤ y.code) :
    (one.div y).code ≤ (one.div x).code := by
  have hpos {z : Binary64} (hz : z.Positive) : 0 < z.quanta :=
    Nat.pos_of_ne_zero (mt quanta_eq_zero_iff.mp hz.code_pos.ne')
  rw [hx.code_one_div, hy.code_one_div]
  exact Format.nearest_mono (hpos hy) (hpos hx)
    (Nat.mul_le_mul_left _ (quanta_le_quanta_iff.mpr h))

end Binary64

end DataLink
