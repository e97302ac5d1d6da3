import DataLink.Proofs.RoundingOrder
import Mathlib.Order.WellFounded

/-!
# Nearest numbers of a format

Which number of a format is nearest to a magnitude can be said without a way to find it: no other
number is nearer, and of two that are equally near it is the one with the even code. The power of
two that would follow the largest finite magnitude stands in for infinity. There is exactly one such
number, and rounding finds it.
-/

namespace DataLink

namespace Format

variable {f : Format} {num den code code' : Nat}

/-- How far what a code denotes is from `num / den` quanta, in parts of `1 / den` quanta. -/
def distance (f : Format) (num den code : Nat) : Nat :=
  ((f.magnitude code * den : Nat) - num : Int).natAbs

/-- The code is the nearest one to `num / den` quanta, ties to even. -/
structure IsNearest (f : Format) (num den code : Nat) : Prop where
  le_infinity : code ≤ f.infinity
  nearest : ∀ other ≤ f.infinity, f.distance num den code ≤ f.distance num den other
  even : ∀ other ≤ f.infinity, other ≠ code →
    f.distance num den other = f.distance num den code → code % 2 = 0

/-- Greater codes denote greater magnitudes, in any unit. -/
theorem magnitude_mul_lt (f : Format) (hden : 0 < den) (h : code < code') :
    f.magnitude code * den < f.magnitude code' * den :=
  Nat.mul_lt_mul_of_pos_right (f.magnitude_strictMono h) hden

/-- There is at most one nearest code. -/
theorem IsNearest.unique (hden : 0 < den) (h : f.IsNearest num den code)
    (h' : f.IsNearest num den code') : code = code' := by
  -- Of two codes that are equally near the middle is nearer, and their parity leaves room for it.
  have hnot {lower upper : Nat} (hlower : f.IsNearest num den lower)
      (hupper : f.IsNearest num den upper) : ¬ lower < upper := by
    intro hlt
    have hsame : f.distance num den lower = f.distance num den upper :=
      Nat.le_antisymm (hlower.nearest _ hupper.le_infinity)
        (hupper.nearest _ hlower.le_infinity)
    have heven := hlower.even _ hupper.le_infinity (Nat.ne_of_gt hlt) hsame.symm
    have heven' := hupper.even _ hlower.le_infinity (Nat.ne_of_lt hlt) hsame
    have hroom : lower + 1 < upper := by omega
    have hle := hupper.le_infinity
    have hmiddle := hlower.nearest (lower + 1) (by omega)
    have hfirst : f.magnitude lower * den < f.magnitude (lower + 1) * den :=
      f.magnitude_mul_lt hden (Nat.lt_succ_self lower)
    have hsecond := f.magnitude_mul_lt hden hroom
    simp only [distance] at hsame hmiddle
    omega
  have hle := hnot h' h
  have hge := hnot h h'
  omega

/-! ### Rounding finds it -/

/-- The code of infinity is even. -/
theorem Regular.infinity_even (hf : f.Regular) : f.infinity % 2 = 0 := by
  have hdvd : 2 ∣ 2 ^ f.fractionBits := dvd_pow_self 2 (by have := hf.fractionBits; omega)
  rw [hf.infinity_eq]
  exact Nat.mod_eq_zero_of_dvd (Dvd.dvd.mul_left hdvd _)

/-- The least code but zero denotes a single quantum. -/
theorem magnitude_one (f : Format) : f.magnitude 1 = 1 := by
  have hsplits : f.Splits 1 0 1 := by
    refine ⟨by omega, ?_, .inl rfl⟩
    exact Nat.one_lt_two_pow (by omega)
  rw [hsplits.magnitude_eq, Nat.pow_zero]

/-- What lies between the middles around a code is rounded to the code, also around zero. -/
theorem RoundsTo.nearest_eq_min (hf : f.Regular) (hden : 0 < den)
    (h : f.RoundsTo code num den) : f.nearest num den = min f.infinity code := by
  rcases Nat.eq_zero_or_pos code with rfl | hpos
  · have hhigh := h.high
    rw [(f.magnitude_eq_zero_iff 0).mpr rfl, Nat.zero_add, Nat.zero_add, f.magnitude_one,
      Nat.one_mul] at hhigh
    have hroom : den * 2 ≤ den * 2 ^ (f.fractionBits + 1) := by
      apply Nat.mul_le_mul_left
      rw [Nat.pow_succ]
      have := Nat.two_pow_pos f.fractionBits
      omega
    have hround : roundDiv .toEven num (den * 2 ^ 0) = 0 := by
      rw [Nat.pow_zero, Nat.mul_one]
      exact roundDiv_toEven_eq hden (by omega) (by omega) (by omega)
    rw [nearest_of_binade_bounds hden (.inl rfl) (by rw [Nat.pow_zero, Nat.mul_one]; omega), hround,
      Nat.zero_mul, Nat.add_zero]
  · exact h.nearest_eq hf hden hpos

/-- Every magnitude lies between the middles around some code. -/
theorem exists_roundsTo (f : Format) (num : Nat) (hden : 0 < den) :
    ∃ code, f.RoundsTo code num den := by
  have hbound : ∃ code, num < f.magnitude (code + 1) * den := by
    refine ⟨num, ?_⟩
    calc num
      _ < num + 1 := Nat.lt_succ_self num
      _ ≤ f.magnitude (num + 1) := StrictMono.le_apply f.magnitude_strictMono
      _ ≤ f.magnitude (num + 1) * den := Nat.le_mul_of_pos_right _ hden
  -- The last code that denotes no more than the magnitude, and the next one.
  generalize hbelow : Nat.find hbound = below
  have habove : num < f.magnitude (below + 1) * den := hbelow ▸ Nat.find_spec hbound
  have hfloor : f.magnitude below * den ≤ num := by
    cases below with
    | zero =>
      rw [(f.magnitude_eq_zero_iff 0).mpr rfl, Nat.zero_mul]
      exact Nat.zero_le _
    | succ last => exact Nat.not_lt.mp (@Nat.find_min _ _ hbound last (by omega))
  have hlast : f.magnitude (below - 1) * den ≤ f.magnitude below * den :=
    Nat.mul_le_mul_right den (f.magnitude_strictMono.monotone (Nat.sub_le _ _))
  have hlast' : below % 2 = 1 → f.magnitude (below - 1) * den < f.magnitude below * den :=
    fun hodd => f.magnitude_mul_lt hden (by omega)
  have hnext : f.magnitude (below + 1) * den < f.magnitude (below + 1 + 1) * den :=
    f.magnitude_mul_lt hden (Nat.lt_succ_self _)
  by_cases hlower : 2 * num < (f.magnitude below + f.magnitude (below + 1)) * den ∨
      2 * num = (f.magnitude below + f.magnitude (below + 1)) * den ∧ below % 2 = 0
  · rw [Nat.add_mul] at hlower
    refine ⟨below, ?_, ?_, fun hodd => ?_⟩ <;> simp only [Nat.add_mul] <;> omega
  · rw [Nat.add_mul] at hlower
    refine ⟨below + 1, ?_, ?_, fun hodd => ?_⟩ <;>
      simp only [Nat.add_mul, Nat.add_sub_cancel] <;> omega

/-- Between the middles around a code no other one is nearer. -/
theorem RoundsTo.isNearest (hf : f.Regular) (hden : 0 < den) (h : f.RoundsTo code num den) :
    f.IsNearest num den (min f.infinity code) := by
  obtain ⟨hlow, hhigh, hstrict⟩ := h
  simp only [Nat.add_mul] at hlow hhigh hstrict
  have hmono {a b : Nat} (hle : a ≤ b) : f.magnitude a * den ≤ f.magnitude b * den :=
    Nat.mul_le_mul_right den (f.magnitude_strictMono.monotone hle)
  have hinfinity := hf.infinity_even
  generalize hcapped : min f.infinity code = capped
  have hle : capped ≤ f.infinity := by omega
  have hbelow : ∀ other < capped, f.magnitude other * den + f.magnitude capped * den ≤ 2 * num ∧
      (f.magnitude other * den + f.magnitude capped * den = 2 * num → capped % 2 = 0) := by
    intro other hother
    have hfirst := hmono (show other ≤ code - 1 by omega)
    have hsecond := hmono (show capped ≤ code by omega)
    refine ⟨by omega, fun hsame => ?_⟩
    by_cases hodd : code % 2 = 1
    · have := hstrict hodd
      omega
    · omega
  have habove : ∀ other ≤ f.infinity, capped < other →
      2 * num ≤ f.magnitude capped * den + f.magnitude other * den ∧
        (2 * num = f.magnitude capped * den + f.magnitude other * den → capped % 2 = 0) := by
    intro other hother hgt
    obtain rfl : capped = code := by omega
    have hnext := hmono (show capped + 1 ≤ other by omega)
    refine ⟨by omega, fun hsame => ?_⟩
    by_cases hodd : capped % 2 = 1
    · have := hstrict hodd
      omega
    · omega
  refine ⟨hle, fun other hother => ?_, fun other hother hne hsame => ?_⟩
  · rcases Nat.lt_trichotomy other capped with hlt | rfl | hgt
    · have := hbelow other hlt
      have := f.magnitude_mul_lt hden hlt
      simp only [distance]
      omega
    · exact Nat.le_refl _
    · have := habove other hother hgt
      have := f.magnitude_mul_lt hden hgt
      simp only [distance]
      omega
  · simp only [distance] at hsame
    rcases Nat.lt_or_gt_of_ne hne with hlt | hgt
    · have := hbelow other hlt
      have := f.magnitude_mul_lt hden hlt
      omega
    · have := habove other hother hgt
      have := f.magnitude_mul_lt hden hgt
      omega

/-- Rounding finds the nearest code. -/
theorem isNearest_nearest (hf : f.Regular) (num : Nat) (hden : 0 < den) :
    f.IsNearest num den (f.nearest num den) := by
  obtain ⟨code, h⟩ := f.exists_roundsTo num hden
  rw [h.nearest_eq_min hf hden]
  exact h.isNearest hf hden

/-- The nearest code is the one that rounding finds. -/
theorem IsNearest.eq_nearest (hf : f.Regular) (hden : 0 < den) (h : f.IsNearest num den code) :
    code = f.nearest num den := h.unique hden (isNearest_nearest hf num hden)

end Format

namespace Binary64

variable {x y : Binary64}

/-- A sum of finite numbers is the number nearest to the exact sum, and it has its sign. A zero sum
is negative only if both terms are. -/
theorem isNearest_add (hx : x.isFinite = true) (hy : y.isFinite = true) :
    Format.binary64.IsNearest (x.scaled + y.scaled).natAbs 1 (x.add y).code ∧
      (x.add y).isNegative = if x.scaled + y.scaled = 0 then x.isNegative && y.isNegative
        else decide (x.scaled + y.scaled < 0) := by
  have hnearest := Format.isNearest_nearest Format.regular_binary64
    (x.scaled + y.scaled).natAbs Nat.one_pos
  rw [add_of_isFinite hx hy]
  by_cases hsum : x.scaled + y.scaled = 0
  · have hzero : Format.binary64.nearest 0 1 = 0 := by decide +kernel
    rw [hsum, Int.natAbs_zero, hzero] at hnearest
    rw [hsum, if_pos rfl, if_pos rfl, Int.natAbs_zero, code_ofCode _ (Nat.two_pow_pos _),
      isNegative_ofCode _ (Nat.two_pow_pos _)]
    exact ⟨hnearest, rfl⟩
  · rw [if_neg hsum, if_neg hsum, code_ofQuotient, isNegative_ofQuotient]
    exact ⟨hnearest, rfl⟩

end Binary64

end DataLink
