import DataLink.Number.Binary64
import DataLink.Proofs.Rounding

/-!
# Sums of double-precision numbers

A number is its sign and its code. A sum of finite numbers is infinite exactly if the exact sum is
too large, and adding a zero changes no number but the negative zero.
-/

namespace DataLink

/-- Double precision is a regular format. -/
theorem Format.regular_binary64 : Format.binary64.Regular := ⟨by decide, by decide⟩

namespace Binary64

variable {x y : Binary64} {negative : Bool} {code : Nat}

/-! ### Signs and codes -/

/-- The code of infinity leaves room for the sign. -/
theorem infinity_lt_signPlace : Format.binary64.infinity < Format.binary64.signPlace :=
  Nat.lt_trans Format.binary64.infinity_lt_quietNaN Format.regular_binary64.quietNaN_lt_signPlace

/-- The sign is the first bit of a word. -/
theorem two_pow_word : 2 ^ 64 = Format.binary64.signPlace + Format.binary64.signPlace := rfl

/-- The word of a double is its code with the sign in front. -/
theorem toNat_ofCode (negative : Bool) (h : code < Format.binary64.signPlace) :
    (ofCode negative code).bits.toNat =
      if negative then Format.binary64.signPlace + code else code := by
  rw [ofCode, UInt64.toNat_ofNat', two_pow_word, Nat.mod_eq_of_lt]
  split <;> omega

/-- A double that is made of a code has this code. -/
theorem code_ofCode (negative : Bool) (h : code < Format.binary64.signPlace) :
    (ofCode negative code).code = code := by
  rw [Binary64.code, toNat_ofCode negative h]
  split
  · rw [Nat.add_mod_left, Nat.mod_eq_of_lt h]
  · exact Nat.mod_eq_of_lt h

/-- A double that is made with a sign has this sign. -/
theorem isNegative_ofCode (negative : Bool) (h : code < Format.binary64.signPlace) :
    (ofCode negative code).isNegative = negative := by
  rw [isNegative, toNat_ofCode negative h]
  cases negative with
  | true => exact decide_eq_true (Nat.le_add_right _ _)
  | false => exact decide_eq_false (Nat.not_le.mpr h)

/-- Codes leave room for the sign. -/
theorem code_lt (x : Binary64) : x.code < Format.binary64.signPlace :=
  Nat.mod_lt _ (Nat.two_pow_pos _)

/-- A number is its sign and its code. -/
theorem ofCode_code (x : Binary64) : ofCode x.isNegative x.code = x := by
  have hlt := x.bits.toNat_lt
  rw [two_pow_word] at hlt
  have hbits : (ofCode x.isNegative x.code).bits.toNat = x.bits.toNat := by
    rw [toNat_ofCode _ x.code_lt, isNegative, Binary64.code]
    by_cases hle : Format.binary64.signPlace ≤ x.bits.toNat
    · rw [decide_eq_true hle, if_pos rfl, Nat.mod_eq_sub_mod hle, Nat.mod_eq_of_lt (by omega)]
      omega
    · rw [decide_eq_false hle, if_neg Bool.false_ne_true, Nat.mod_eq_of_lt (by omega)]
  cases x with
  | mk bits => exact congrArg Binary64.mk (UInt64.toNat_inj.mp hbits)

/-- Sign and code tell doubles apart. -/
theorem eq_of_code_eq (hsign : x.isNegative = y.isNegative) (hcode : x.code = y.code) : x = y := by
  rw [← x.ofCode_code, ← y.ofCode_code, hsign, hcode]

/-! ### Kinds of numbers -/

/-- The codes of finite numbers lie below that of infinity. -/
theorem isFinite_iff : x.isFinite = true ↔ x.code < Format.binary64.infinity := decide_eq_true_iff

/-- Infinities have a code of their own. -/
theorem isInfinite_iff : x.isInfinite = true ↔ x.code = Format.binary64.infinity :=
  decide_eq_true_iff

/-- Codes beyond that of infinity are no numbers. -/
theorem isNaN_iff : x.isNaN = true ↔ Format.binary64.infinity < x.code := decide_eq_true_iff

/-- Numbers have codes up to that of infinity. -/
theorem isNaN_eq_false_iff : x.isNaN = false ↔ x.code ≤ Format.binary64.infinity :=
  decide_eq_false_iff_not.trans Nat.not_lt

/-- What is finite is a number. -/
theorem isNaN_of_isFinite (h : x.isFinite = true) : x.isNaN = false :=
  isNaN_eq_false_iff.mpr (Nat.le_of_lt (isFinite_iff.mp h))

/-- What is finite is no infinity. -/
theorem isInfinite_of_isFinite (h : x.isFinite = true) : x.isInfinite = false :=
  decide_eq_false (Nat.ne_of_lt (isFinite_iff.mp h))

/-- An infinity is a number. -/
theorem isNaN_of_isInfinite (h : x.isInfinite = true) : x.isNaN = false :=
  isNaN_eq_false_iff.mpr (Nat.le_of_eq (isInfinite_iff.mp h))

/-- What is no infinity among numbers is finite. -/
theorem isFinite_of_isNaN_eq_false (hnan : x.isNaN = false) (hinf : x.isInfinite = false) :
    x.isFinite = true := by
  rw [isNaN_eq_false_iff] at hnan
  have hne : x.code ≠ Format.binary64.infinity := of_decide_eq_false hinf
  exact isFinite_iff.mpr (by omega)

/-- A double is no number, an infinity or finite. -/
theorem isNaN_or_isInfinite_or_isFinite (x : Binary64) :
    x.isNaN = true ∨ x.isInfinite = true ∨ x.isFinite = true := by
  rw [isNaN_iff, isInfinite_iff, isFinite_iff]
  omega

/-- What is no number is not finite. -/
theorem isFinite_of_isNaN (h : x.isNaN = true) : x.isFinite = false :=
  decide_eq_false (Nat.lt_asymm (isNaN_iff.mp h))

/-- An infinity is not finite. -/
theorem isFinite_of_isInfinite (h : x.isInfinite = true) : x.isFinite = false :=
  decide_eq_false (Nat.not_lt.mpr (Nat.le_of_eq (isInfinite_iff.mp h).symm))

/-- The quiet pattern is no number. -/
theorem isNaN_nan : nan.isNaN = true := by decide

/-- Zero is finite. -/
theorem isFinite_zero : zero.isFinite = true := by decide

/-- Zero has no sign. -/
theorem isNegative_zero : zero.isNegative = false := by decide

/-- The code of zero is zero. -/
theorem code_zero : zero.code = 0 := by decide

/-! ### Values -/

/-- Only the code zero denotes no quanta. -/
theorem quanta_eq_zero_iff : x.quanta = 0 ↔ x.code = 0 := Format.magnitude_eq_zero_iff _ _

/-- Without its sign a number is as many quanta as its code denotes. -/
theorem natAbs_scaled (x : Binary64) : x.scaled.natAbs = x.quanta := by
  unfold scaled
  split
  · rw [Int.natAbs_neg, Int.natAbs_natCast]
  · rw [Int.natAbs_natCast]

/-- Values of one sign add up in their magnitudes. -/
theorem natAbs_scaled_add (h : x.isNegative = y.isNegative) :
    (x.scaled + y.scaled).natAbs = x.quanta + y.quanta := by
  unfold scaled
  rw [h]
  split <;> omega

/-- A sum has at most the quanta of both terms. -/
theorem natAbs_scaled_add_le (x y : Binary64) :
    (x.scaled + y.scaled).natAbs ≤ x.quanta + y.quanta := by
  rw [← x.natAbs_scaled, ← y.natAbs_scaled]
  exact Int.natAbs_add_le _ _

/-- Of the numbers other than zero those with a sign are below zero. -/
theorem scaled_neg_eq (h : x.code ≠ 0) : decide (x.scaled < 0) = x.isNegative := by
  have hquanta : x.quanta ≠ 0 := mt quanta_eq_zero_iff.mp h
  unfold scaled
  cases x.isNegative with
  | true =>
    rw [if_pos rfl, decide_eq_true_iff]
    omega
  | false =>
    rw [if_neg Bool.false_ne_true, decide_eq_false_iff_not]
    omega

/-- Both zeros are zero, and no other number is. -/
theorem scaled_eq_zero_iff : x.scaled = 0 ↔ x.code = 0 := by
  rw [← Int.natAbs_eq_zero, natAbs_scaled, quanta_eq_zero_iff]

/-- No finite number is beyond the largest one. -/
theorem quanta_le_maxFinite (h : x.isFinite = true) : x.quanta ≤ Format.binary64.maxFinite :=
  Format.magnitude_le_maxFinite Format.regular_binary64 (isFinite_iff.mp h)

/-! ### Negation -/

/-- Negation keeps the code. -/
theorem code_neg (x : Binary64) : x.neg.code = x.code := code_ofCode _ x.code_lt

/-- Negation turns the sign around. -/
theorem isNegative_neg (x : Binary64) : x.neg.isNegative = !x.isNegative :=
  isNegative_ofCode _ x.code_lt

/-- Negation keeps a number finite. -/
theorem isFinite_neg (x : Binary64) : x.neg.isFinite = x.isFinite := by
  rw [isFinite, code_neg, isFinite]

/-! ### Rounded quotients -/

/-- Rounding leaves room for the sign. -/
theorem nearest_lt_signPlace (num den : Nat) :
    Format.binary64.nearest num den < Format.binary64.signPlace :=
  Nat.lt_of_le_of_lt (Format.nearest_le_infinity _ _ _) infinity_lt_signPlace

/-- A quotient has the code that it is rounded to. -/
theorem code_ofQuotient (negative : Bool) (num den : Nat) :
    (ofQuotient negative num den).code = Format.binary64.nearest num den :=
  code_ofCode _ (nearest_lt_signPlace num den)

/-- A quotient keeps its sign. -/
theorem isNegative_ofQuotient (negative : Bool) (num den : Nat) :
    (ofQuotient negative num den).isNegative = negative :=
  isNegative_ofCode _ (nearest_lt_signPlace num den)

/-- A quotient is a number. -/
theorem isNaN_ofQuotient (negative : Bool) (num den : Nat) :
    (ofQuotient negative num den).isNaN = false := by
  rw [isNaN_eq_false_iff, code_ofQuotient]
  exact Format.nearest_le_infinity _ _ _

/-- A quotient is infinite from the overflow threshold on. -/
theorem isInfinite_ofQuotient_iff (negative : Bool) {num den : Nat} (hden : 0 < den) :
    (ofQuotient negative num den).isInfinite = true ↔ Format.binary64.overflow * den ≤ num := by
  rw [isInfinite_iff, code_ofQuotient,
    Format.nearest_eq_infinity_iff Format.regular_binary64 hden]

/-- The magnitude of a number is rounded to this number. -/
theorem ofQuotient_quanta (h : x.isNaN = false) :
    ofQuotient x.isNegative x.quanta 1 = x := by
  have hnearest := Format.binary64.nearest_magnitude x.code Nat.one_pos
  rw [Nat.mul_one, Nat.min_eq_right (isNaN_eq_false_iff.mp h)] at hnearest
  rw [ofQuotient, quanta, hnearest, ofCode_code]

/-! ### Sums -/

/-- The sum with what is no number is none. -/
theorem add_of_isNaN (h : x.isNaN = true) (y : Binary64) : x.add y = nan := by
  rw [add, h, Bool.true_or, if_pos rfl]

/-- An infinity absorbs finite numbers. -/
theorem add_of_isInfinite (hx : x.isInfinite = true) (hy : y.isFinite = true) : x.add y = x := by
  simp only [add, isNaN_of_isInfinite hx, isNaN_of_isFinite hy, hx, isInfinite_of_isFinite hy,
    Bool.or_self, Bool.false_and, Bool.false_eq_true, if_false, if_true]

/-- The exact sum of finite numbers is rounded once, and a zero sum is negative only if both terms
are. -/
theorem add_of_isFinite (hx : x.isFinite = true) (hy : y.isFinite = true) :
    x.add y = if x.scaled + y.scaled = 0 then ofCode (x.isNegative && y.isNegative) 0
      else ofQuotient (x.scaled + y.scaled < 0) (x.scaled + y.scaled).natAbs 1 := by
  simp only [add, isNaN_of_isFinite hx, isNaN_of_isFinite hy, isInfinite_of_isFinite hx,
    isInfinite_of_isFinite hy, Bool.or_self, Bool.false_eq_true, if_false]

/-- The sum of finite numbers is a number. -/
theorem isNaN_add (hx : x.isFinite = true) (hy : y.isFinite = true) :
    (x.add y).isNaN = false := by
  rw [add_of_isFinite hx hy]
  split
  · rw [isNaN_eq_false_iff, code_ofCode _ (Nat.two_pow_pos _)]
    exact Nat.zero_le _
  · exact isNaN_ofQuotient _ _ _

/-- A sum of finite numbers overflows if the exact sum is too large. -/
theorem isInfinite_add_iff (hx : x.isFinite = true) (hy : y.isFinite = true) :
    (x.add y).isInfinite = true ↔
      Format.binary64.overflow ≤ (x.scaled + y.scaled).natAbs := by
  rw [add_of_isFinite hx hy]
  split
  · rename_i hzero
    have hpos := Format.binary64.overflow_pos
    rw [isInfinite_iff, code_ofCode _ (Nat.two_pow_pos _), hzero, Int.natAbs_zero]
    exact iff_of_false (by decide) (Nat.not_le.mpr hpos)
  · rw [isInfinite_ofQuotient_iff _ Nat.one_pos, Nat.mul_one]

/-! ### Sums that overflow -/

/-- Half a unit of the largest finite numbers. -/
theorem half_unit_eq : 2 ^ 970 * perUnit = 2 ^ (Format.binary64.topBinade - 1) := by
  have hplaces : Format.binary64.topBinade - 1 = 970 + Format.binary64.quantumPlaces := rfl
  rw [hplaces, Nat.pow_add]
  unfold perUnit
  rw [Nat.pow_eq]

/-- The largest finite number of either sign is one. -/
theorem exists_maxFinite (negative : Bool) : ∃ x : Binary64, x.isFinite = true ∧
    x.isNegative = negative ∧ x.quanta = Format.binary64.maxFinite := by
  obtain ⟨code, hcode, hmagnitude⟩ := Format.exists_code_maxFinite Format.regular_binary64
  have hlt : code < Format.binary64.signPlace := Nat.lt_trans hcode infinity_lt_signPlace
  refine ⟨.ofCode negative code, ?_, isNegative_ofCode _ hlt, ?_⟩
  · rw [isFinite_iff, code_ofCode _ hlt]
    exact hcode
  · rw [quanta, code_ofCode _ hlt, hmagnitude]

/-- Sums stay finite if one term is below half a unit of the largest finite numbers. -/
theorem isFinite_add (hx : x.isFinite = true) (hy : y.isFinite = true)
    (h : x.quanta < 2 ^ 970 * perUnit ∨ y.quanta < 2 ^ 970 * perUnit) :
    (x.add y).isFinite = true := by
  apply isFinite_of_isNaN_eq_false (isNaN_add hx hy)
  rw [Bool.eq_false_iff, Ne, isInfinite_add_iff hx hy, Nat.not_le,
    Format.regular_binary64.overflow_eq, ← half_unit_eq]
  have hsum := x.natAbs_scaled_add_le y
  have hle := quanta_le_maxFinite hx
  have hle' := quanta_le_maxFinite hy
  omega

/-- A larger term leads out of the finite numbers, together with the largest one of its sign. -/
theorem exists_isInfinite_add (hy : y.isFinite = true) (h : 2 ^ 970 * perUnit ≤ y.quanta) :
    ∃ x : Binary64, x.isFinite = true ∧ (x.add y).isInfinite = true := by
  obtain ⟨x, hx, hsign, hquanta⟩ := exists_maxFinite y.isNegative
  refine ⟨x, hx, ?_⟩
  rw [isInfinite_add_iff hx hy, natAbs_scaled_add hsign, hquanta,
    Format.regular_binary64.overflow_eq, ← half_unit_eq]
  omega

/-! ### Sums with zero -/

/-- A zero that is added changes at most the sign of a zero. -/
theorem add_of_code_eq_zero (hx : x.isNaN = false) (hy : y.code = 0) :
    x.add y = if x.code = 0 then ofCode (x.isNegative && y.isNegative) 0 else x := by
  have hfinite : y.isFinite = true := isFinite_iff.mpr (by rw [hy]; decide)
  cases hinf : x.isInfinite with
  | true =>
    have hne : x.code ≠ 0 := by
      rw [isInfinite_iff.mp hinf]
      decide
    rw [add_of_isInfinite hinf hfinite, if_neg hne]
  | false =>
    have hsum : x.scaled + y.scaled = x.scaled := by
      rw [scaled_eq_zero_iff.mpr hy, Int.add_zero]
    rw [add_of_isFinite (isFinite_of_isNaN_eq_false hx hinf) hfinite, hsum]
    simp only [scaled_eq_zero_iff]
    split
    · rfl
    · rename_i hne
      rw [natAbs_scaled, scaled_neg_eq hne, ofQuotient_quanta hx]

/-- Adding zero takes the sign off a zero and changes no other number. -/
theorem add_zero_eq (h : x.isNaN = false) : x.add zero = if x.code = 0 then zero else x := by
  rw [add_of_code_eq_zero h code_zero, isNegative_zero, Bool.and_false]
  rfl

/-- Nothing changes if zero is subtracted. -/
theorem sub_zero_eq (h : x.isNaN = false) : x.sub zero = x := by
  have hcode : zero.neg.code = 0 := by rw [code_neg, code_zero]
  rw [sub, add_of_code_eq_zero h hcode, isNegative_neg, isNegative_zero, Bool.not_false,
    Bool.and_true]
  split
  · rename_i hzero
    rw [← hzero, ofCode_code]
  · rfl

end Binary64

end DataLink
