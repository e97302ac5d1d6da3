import DataLink.Proofs.Rounding

/-!
# What is rounded to a code

Neighbouring codes are one unit of the lower code's binade apart. Whatever lies between the middles
of the gaps on both sides of a code is rounded to it, and so do the middles themselves if the code
is even.
-/

namespace DataLink

/-- A quotient within half of an integer is rounded to it; an exact half only if the integer is
even. -/
theorem roundDiv_toEven_eq {n num den : Nat} (hden : 0 < den)
    (hlow : 2 * (n * den) ≤ 2 * num + den) (hhigh : 2 * num ≤ 2 * (n * den) + den)
    (hodd : n % 2 = 1 → 2 * (n * den) < 2 * num + den ∧ 2 * num < 2 * (n * den) + den) :
    roundDiv .toEven num den = n := by
  have hnum := Nat.div_add_mod' num den
  have hmod := Nat.mod_lt num hden
  -- The whole part is the integer itself or the one below.
  have hle : num / den ≤ n := by
    by_contra hgt
    have hnext := Nat.mul_le_mul_right den (Nat.not_le.mp hgt)
    rw [Nat.succ_mul] at hnext
    omega
  have hge : n ≤ num / den + 1 := by
    by_contra hlt
    have hnext := Nat.mul_le_mul_right den (Nat.not_le.mp hlt)
    rw [Nat.succ_mul, Nat.succ_mul] at hnext
    omega
  obtain heq | heq : num / den = n ∨ num / den + 1 = n := by omega
  · simp only [roundDiv, heq] at hnum ⊢
    split_ifs <;> omega
  · have hprod : n * den = num / den * den + den := by rw [← heq, Nat.succ_mul]
    simp only [roundDiv]
    split_ifs <;> omega

namespace Format

variable {f : Format} {code binade significand num den : Nat}

/-- The next code has the next significand. -/
theorem Splits.magnitude_succ (h : f.Splits code binade significand) :
    f.magnitude (code + 1) = (significand + 1) * 2 ^ binade := by
  have hcode := h.code_eq
  have hlt := h.lt
  by_cases hfull : significand + 1 < 2 ^ (f.fractionBits + 1)
  · have hnext : f.Splits (code + 1) binade (significand + 1) :=
      ⟨by omega, hfull, h.normal.imp_right (by omega)⟩
    exact hnext.magnitude_eq
  · have hfull : significand + 1 = 2 * 2 ^ f.fractionBits := by
      rw [Nat.pow_succ'] at hlt hfull
      omega
    have hnext : f.Splits (code + 1) (binade + 1) (2 ^ f.fractionBits) := by
      refine ⟨?_, Nat.pow_lt_pow_right (by omega) (by omega), .inr (Nat.le_refl _)⟩
      rw [Nat.succ_mul]
      omega
    rw [hnext.magnitude_eq, hfull, Nat.pow_succ']
    ring

/-- The gap below a code is a unit of its binade, except below the first code of a binade. -/
theorem Splits.magnitude_pred (h : f.Splits code binade (significand + 1))
    (hinner : binade = 0 ∨ 2 ^ f.fractionBits ≤ significand) :
    f.magnitude (code - 1) = significand * 2 ^ binade := by
  have hcode := h.code_eq
  have hlt := h.lt
  have hlast : f.Splits (code - 1) binade significand := ⟨by omega, by omega, hinner⟩
  exact hlast.magnitude_eq

/-- Below the first code of a binade the gap is half a unit. -/
theorem Splits.magnitude_pred_first (h : f.Splits code (binade + 1) (2 ^ f.fractionBits)) :
    f.magnitude (code - 1) = (2 * 2 ^ f.fractionBits - 1) * 2 ^ binade := by
  have hpos := Nat.two_pow_pos f.fractionBits
  have hcode := h.code_eq
  rw [Nat.succ_mul] at hcode
  have hlast : f.Splits (code - 1) binade (2 * 2 ^ f.fractionBits - 1) := by
    refine ⟨by omega, ?_, .inr (by omega)⟩
    rw [Nat.pow_succ']
    omega
  exact hlast.magnitude_eq

/-- The first code of a binade continues the binade below. -/
theorem Splits.magnitude_first (h : f.Splits code (binade + 1) (2 ^ f.fractionBits)) :
    f.magnitude code = 2 * 2 ^ f.fractionBits * 2 ^ binade := by
  rw [h.magnitude_eq, Nat.pow_succ']
  ring

/-- The next code has a greater magnitude. -/
theorem magnitude_lt_succ (f : Format) (code : Nat) :
    f.magnitude code < f.magnitude (code + 1) := by
  obtain ⟨binade, significand, h⟩ := f.exists_splits code
  rw [h.magnitude_succ, h.magnitude_eq]
  exact Nat.mul_lt_mul_of_pos_right (Nat.lt_succ_self _) (Nat.two_pow_pos _)

/-- A binade whose start lies at or below a number is no higher than one whose end lies above it. -/
theorem le_of_binade_bounds {lower upper : Nat}
    (hlower : lower = 0 ∨ den * 2 ^ lower * 2 ^ f.fractionBits ≤ num)
    (hupper : num < den * 2 ^ upper * 2 ^ (f.fractionBits + 1)) : lower ≤ upper := by
  by_contra hlt
  have hnum := hlower.resolve_left (by omega)
  have hunit : 2 ^ (upper + 1) ≤ 2 ^ lower := Nat.pow_le_pow_right (by omega) (by omega)
  have hle : den * 2 ^ upper * 2 ^ (f.fractionBits + 1) ≤ den * 2 ^ lower * 2 ^ f.fractionBits := by
    calc den * 2 ^ upper * 2 ^ (f.fractionBits + 1)
      _ = den * 2 ^ (upper + 1) * 2 ^ f.fractionBits := by rw [Nat.pow_succ, Nat.pow_succ]; ring
      _ ≤ den * 2 ^ lower * 2 ^ f.fractionBits :=
        Nat.mul_le_mul_right _ (Nat.mul_le_mul_left den hunit)
  omega

/-- In which binade a quotient is rounded. -/
theorem nearest_of_binade_bounds (hden : 0 < den)
    (hlower : binade = 0 ∨ den * 2 ^ binade * 2 ^ f.fractionBits ≤ num)
    (hupper : num < den * 2 ^ binade * 2 ^ (f.fractionBits + 1)) :
    f.nearest num den = min f.infinity
      (binade * 2 ^ f.fractionBits + roundDiv .toEven num (den * 2 ^ binade)) := by
  obtain ⟨hupper', hlower'⟩ := f.binade_spec hden rfl
  have hbinade : Nat.log2 (num / den) - f.fractionBits = binade :=
    Nat.le_antisymm (le_of_binade_bounds hlower' hupper) (le_of_binade_bounds hlower hupper')
  simp only [nearest, Nat.pow_eq, hbinade]

/-- A quotient in the code's own binade. -/
theorem Splits.nearest_eq (h : f.Splits code binade significand) (hden : 0 < den)
    (hlower : binade = 0 ∨ den * 2 ^ binade * 2 ^ f.fractionBits ≤ num)
    (hlow : 2 * (significand * (den * 2 ^ binade)) ≤ 2 * num + den * 2 ^ binade)
    (hhigh : 2 * num ≤ 2 * (significand * (den * 2 ^ binade)) + den * 2 ^ binade)
    (hodd : significand % 2 = 1 →
      2 * (significand * (den * 2 ^ binade)) < 2 * num + den * 2 ^ binade ∧
        2 * num < 2 * (significand * (den * 2 ^ binade)) + den * 2 ^ binade) :
    f.nearest num den = min f.infinity code := by
  have hunit : 0 < den * 2 ^ binade := Nat.mul_pos hden (Nat.two_pow_pos _)
  have hupper : num < den * 2 ^ binade * 2 ^ (f.fractionBits + 1) := by
    have hnext := Nat.mul_le_mul_right (den * 2 ^ binade) h.lt
    rw [Nat.succ_mul, Nat.mul_comm (2 ^ _)] at hnext
    omega
  rw [nearest_of_binade_bounds hden hlower hupper, roundDiv_toEven_eq hunit hlow hhigh hodd,
    ← h.code_eq]

/-- A quotient in the binade below that of a code that is the first of its own. Its units are half
as large, and rounding carries over. -/
theorem Splits.nearest_eq_first (h : f.Splits code (binade + 1) (2 ^ f.fractionBits))
    (hden : 0 < den) (hupper : num < den * 2 ^ binade * 2 ^ (f.fractionBits + 1))
    (hlow : 2 * (2 ^ (f.fractionBits + 1) * (den * 2 ^ binade)) ≤ 2 * num + den * 2 ^ binade) :
    f.nearest num den = min f.infinity code := by
  have hunit : 0 < den * 2 ^ binade := Nat.mul_pos hden (Nat.two_pow_pos _)
  have htwice : 2 ^ (f.fractionBits + 1) = 2 * 2 ^ f.fractionBits := Nat.pow_succ'
  have hcode := h.code_eq
  rw [Nat.succ_mul] at hcode
  rw [Nat.mul_comm _ (2 ^ _)] at hupper
  have hlower : den * 2 ^ binade * 2 ^ f.fractionBits ≤ num := by
    have hfirst := Nat.mul_le_mul_right (den * 2 ^ binade) (Nat.two_pow_pos f.fractionBits)
    have hdouble : 2 ^ (f.fractionBits + 1) * (den * 2 ^ binade) =
        2 * (2 ^ f.fractionBits * (den * 2 ^ binade)) := by rw [htwice, Nat.mul_assoc]
    rw [Nat.mul_comm _ (2 ^ _)]
    omega
  have hround : roundDiv .toEven num (den * 2 ^ binade) = 2 ^ (f.fractionBits + 1) :=
    roundDiv_toEven_eq hunit hlow (by omega) (by omega)
  rw [nearest_of_binade_bounds hden (.inr hlower) (by rwa [Nat.mul_comm _ (2 ^ _)]), hround, hcode]
  congr 1
  omega

/-- A quotient, in quanta, lies between the middles of the gaps on both sides of a code. It is one
of the middles only if the code is even. -/
structure RoundsTo (f : Format) (code num den : Nat) : Prop where
  low : (f.magnitude (code - 1) + f.magnitude code) * den ≤ 2 * num
  high : 2 * num ≤ (f.magnitude code + f.magnitude (code + 1)) * den
  strict : code % 2 = 1 → (f.magnitude (code - 1) + f.magnitude code) * den < 2 * num ∧
    2 * num < (f.magnitude code + f.magnitude (code + 1)) * den

/-- What lies between the middles around a code is rounded to the code. -/
theorem RoundsTo.nearest_eq (hf : f.Regular) (hden : 0 < den) (hcode : 0 < code)
    (h : f.RoundsTo code num den) : f.nearest num den = min f.infinity code := by
  obtain ⟨hlow, hhigh, hstrict⟩ := h
  obtain ⟨binade, significand, hsplits⟩ := f.exists_splits code
  have hcodeq := hsplits.code_eq
  have heven : 2 ^ f.fractionBits % 2 = 0 :=
    Nat.mod_eq_zero_of_dvd (dvd_pow_self 2 (by have := hf.fractionBits; omega))
  have hparity : code % 2 = significand % 2 := by
    rw [hcodeq, Nat.add_mod, Nat.mul_mod, heven, Nat.mul_zero, Nat.zero_mod, Nat.zero_add,
      Nat.mod_mod]
  have habove : (f.magnitude code + f.magnitude (code + 1)) * den =
      2 * (significand * (den * 2 ^ binade)) + den * 2 ^ binade := by
    rw [hsplits.magnitude_eq, hsplits.magnitude_succ]
    ring
  rw [habove] at hhigh hstrict
  by_cases hinner : binade = 0 ∨ 2 ^ f.fractionBits < significand
  · have hpos : 0 < significand := by
      rcases hinner with rfl | hinner
      · rwa [hcodeq, Nat.zero_mul, Nat.zero_add] at hcode
      · exact Nat.zero_lt_of_lt hinner
    obtain ⟨below, rfl⟩ : ∃ below, significand = below + 1 :=
      ⟨significand - 1, (Nat.sub_add_cancel hpos).symm⟩
    have hbelow : (f.magnitude (code - 1) + f.magnitude code) * den + den * 2 ^ binade =
        2 * ((below + 1) * (den * 2 ^ binade)) := by
      rw [hsplits.magnitude_pred (hinner.imp_right (by omega)), hsplits.magnitude_eq]
      ring
    refine hsplits.nearest_eq hden (hinner.imp_right fun hgt => ?_) (by omega) hhigh fun hodd => ?_
    · have hfirst := Nat.mul_le_mul_right (den * 2 ^ binade) hgt
      rw [Nat.succ_mul, Nat.mul_comm (2 ^ _)] at hfirst
      omega
    · have := hstrict (by omega)
      omega
  · -- The code is the first of its binade: what is below its magnitude is in the binade below.
    obtain ⟨hzero, hle⟩ := not_or.mp hinner
    obtain ⟨lower, rfl⟩ : ∃ lower, binade = lower + 1 := ⟨binade - 1, by omega⟩
    obtain rfl : significand = 2 ^ f.fractionBits :=
      Nat.le_antisymm (Nat.not_lt.mp hle) (hsplits.normal.resolve_left hzero)
    have hscaled : 2 ^ (f.fractionBits + 1) * (den * 2 ^ lower) =
        2 ^ f.fractionBits * (den * 2 ^ (lower + 1)) := by
      rw [Nat.pow_succ', Nat.pow_succ']
      ring
    have hbelow : (f.magnitude (code - 1) + f.magnitude code) * den + den * 2 ^ lower =
        2 * (2 ^ (f.fractionBits + 1) * (den * 2 ^ lower)) := by
      obtain ⟨units, hunits⟩ : ∃ units, 2 * 2 ^ f.fractionBits = units + 1 :=
        ⟨2 * 2 ^ f.fractionBits - 1, by have := Nat.two_pow_pos f.fractionBits; omega⟩
      rw [hsplits.magnitude_pred_first, hsplits.magnitude_first, Nat.pow_succ', hunits,
        Nat.add_sub_cancel]
      ring
    by_cases hsame : den * 2 ^ (lower + 1) * 2 ^ f.fractionBits ≤ num
    · refine hsplits.nearest_eq hden (.inr hsame) ?_ hhigh (by omega)
      rw [Nat.mul_comm (2 ^ _)]
      omega
    · refine hsplits.nearest_eq_first hden ?_ (by omega)
      rw [Nat.mul_comm, hscaled, Nat.mul_comm]
      omega

end Format

end DataLink
