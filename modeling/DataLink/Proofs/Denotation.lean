import DataLink.Packet.Field
import DataLink.Proofs.Doubles

/-!
# What a pattern denotes

A pattern of some format and a double-precision number can be the same number: both have a sign
and either are infinite or have one exact magnitude. Every pattern that is a number denotes exactly
one double-precision number. Decoding finds it, and encoding finds the way back.
-/

namespace DataLink

namespace Format

variable {f : Format} {pattern code : Nat} {x y : Binary64}

/-- The quantum of a format is not zero in quanta of double precision. -/
theorem coarseness_pos (f : Format) : 0 < f.coarseness := Nat.two_pow_pos _

/-- Codes of finite magnitudes differ in their magnitudes. -/
theorem magnitude_inj {code' : Nat} (hlt : code < f.infinity) (hlt' : code' < f.infinity)
    (h : f.magnitude code = f.magnitude code') : code = code' := by
  have hnearest := f.nearest_magnitude code Nat.one_pos
  have hnearest' := f.nearest_magnitude code' Nat.one_pos
  rw [Nat.min_eq_right (Nat.le_of_lt hlt), h] at hnearest
  rw [Nat.min_eq_right (Nat.le_of_lt hlt')] at hnearest'
  exact hnearest.symm.trans hnearest'

/-! ### Signs and codes of patterns -/

/-- Taking the sign off a pattern leaves its code. -/
theorem mod_signPlace (negative : Bool) (h : code < f.signPlace) :
    (if negative then f.signPlace + code else code) % f.signPlace = code := by
  split
  · rw [Nat.add_mod_left, Nat.mod_eq_of_lt h]
  · exact Nat.mod_eq_of_lt h

/-- The pattern that stands for no number has no sign. -/
theorem Regular.quietNaN_mod (hf : f.Regular) : f.quietNaN % f.signPlace = f.quietNaN :=
  Nat.mod_eq_of_lt hf.quietNaN_lt_signPlace

/-- A pattern is its sign and its code. -/
theorem pattern_eq (h : pattern < 2 * f.signPlace) :
    (if f.signPlace ≤ pattern then f.signPlace + pattern % f.signPlace
      else pattern % f.signPlace) = pattern := by
  split
  · rename_i hle
    rw [Nat.mod_eq_sub_mod hle, Nat.mod_eq_of_lt (by omega)]
    omega
  · rename_i hlt
    exact Nat.mod_eq_of_lt (Nat.not_le.mp hlt)

/-! ### Denoted numbers -/

/-- The pattern and the number are the same: they have one sign, and both are infinite or they have
one exact magnitude. -/
inductive Denotes (f : Format) (pattern : Nat) (x : Binary64) : Prop where
  | infinite (sign : x.isNegative = decide (f.signPlace ≤ pattern))
      (code : pattern % f.signPlace = f.infinity) (kind : x.isInfinite = true)
  | finite (sign : x.isNegative = decide (f.signPlace ≤ pattern))
      (code : pattern % f.signPlace < f.infinity) (kind : x.isFinite = true)
      (magnitude : x.quanta = f.magnitude (pattern % f.signPlace) * f.coarseness)

namespace Denotes

/-- A pattern has the sign of the number that it denotes. -/
theorem sign (h : f.Denotes pattern x) : x.isNegative = decide (f.signPlace ≤ pattern) := by
  cases h with
  | infinite sign => exact sign
  | finite sign => exact sign

/-- What denotes a number has a code up to that of infinity. -/
theorem mod_le (h : f.Denotes pattern x) : pattern % f.signPlace ≤ f.infinity := by
  cases h with
  | infinite _ code => exact Nat.le_of_eq code
  | finite _ code => exact Nat.le_of_lt code

/-- What is denoted is a number. -/
theorem isNaN_eq_false (h : f.Denotes pattern x) : x.isNaN = false := by
  cases h with
  | infinite _ _ kind => exact Binary64.isNaN_of_isInfinite kind
  | finite _ _ kind => exact Binary64.isNaN_of_isFinite kind

/-- A pattern denotes at most one number. -/
theorem unique (hx : f.Denotes pattern x) (hy : f.Denotes pattern y) : x = y := by
  apply Binary64.eq_of_code_eq (hx.sign.trans hy.sign.symm)
  cases hx with
  | infinite _ hcode hkind =>
    cases hy with
    | infinite _ _ hkind' =>
      exact (Binary64.isInfinite_iff.mp hkind).trans (Binary64.isInfinite_iff.mp hkind').symm
    | finite _ hcode' => omega
  | finite _ hcode hkind hmagnitude =>
    cases hy with
    | infinite _ hcode' => omega
    | finite _ _ hkind' hmagnitude' =>
      exact magnitude_inj (Binary64.isFinite_iff.mp hkind) (Binary64.isFinite_iff.mp hkind')
        (hmagnitude.trans hmagnitude'.symm)

/-- Zeros denote zeros. -/
theorem code_eq_zero_iff (hf : f.Regular) (h : f.Denotes pattern x) :
    x.code = 0 ↔ pattern % f.signPlace = 0 := by
  cases h with
  | infinite _ hcode hkind =>
    have hpos := regular_binary64.infinity_pos
    have hpos' := hf.infinity_pos
    rw [Binary64.isInfinite_iff.mp hkind, hcode]
    omega
  | finite _ _ _ hmagnitude =>
    rw [← Binary64.quanta_eq_zero_iff, hmagnitude, Nat.mul_eq_zero,
      or_iff_left f.coarseness_pos.ne', f.magnitude_eq_zero_iff]

/-- Encoding gives the pattern back. -/
theorem encode_eq (h : f.Denotes pattern x) (hlt : pattern < 2 * f.signPlace) :
    f.encode x = pattern := by
  have hcode : (if x.isInfinite then f.infinity else f.nearest x.quanta f.coarseness) =
      pattern % f.signPlace := by
    cases h with
    | infinite _ hcode hkind => rw [if_pos hkind, hcode]
    | finite _ hcode hkind hmagnitude =>
      rw [Binary64.isInfinite_of_isFinite hkind, if_neg Bool.false_ne_true, hmagnitude,
        f.nearest_magnitude _ f.coarseness_pos, Nat.min_eq_right (Nat.le_of_lt hcode)]
  simp only [encode, h.isNaN_eq_false, Bool.false_eq_true, if_false, hcode, h.sign,
    decide_eq_true_eq]
  exact pattern_eq hlt

end Denotes

/-- In double precision a pattern denotes the number that it is. -/
theorem denotes_bits (h : x.isNaN = false) : binary64.Denotes x.bits.toNat x := by
  have hunit : binary64.coarseness = 1 := rfl
  cases hinf : x.isInfinite with
  | true => exact .infinite rfl (Binary64.isInfinite_iff.mp hinf) hinf
  | false =>
    have hfinite := Binary64.isFinite_of_isNaN_eq_false h hinf
    refine .finite rfl (Binary64.isFinite_iff.mp hfinite) hfinite ?_
    rw [hunit, Nat.mul_one]
    rfl

/-- The empty pattern denotes zero. -/
theorem denotes_zero (hf : f.Regular) : f.Denotes 0 .zero := by
  have hsign : ¬ f.signPlace ≤ 0 := Nat.not_le.mpr (Nat.two_pow_pos _)
  have hcode : 0 % f.signPlace = 0 := Nat.zero_mod _
  refine .finite ?_ ?_ Binary64.isFinite_zero ?_
  · rw [Binary64.isNegative_zero, decide_eq_false hsign]
  · rw [hcode]
    exact hf.infinity_pos
  · rw [hcode, Binary64.quanta_eq_zero_iff.mpr Binary64.code_zero,
      (f.magnitude_eq_zero_iff 0).mpr rfl, Nat.zero_mul]

/-! ### Decoding -/

/-- Double precision has room for the format. -/
structure Widens (f : Format) : Prop extends f.Regular where
  fractionBits_le : f.fractionBits ≤ binary64.fractionBits
  topBinade_le : f.topBinade + (binary64.quantumPlaces - f.quantumPlaces) ≤ binary64.topBinade

/-- The magnitudes of the format are magnitudes of double precision. -/
theorem Widens.exists_code (hf : f.Widens) (h : code < f.infinity) :
    ∃ wide, wide < binary64.infinity ∧
      binary64.magnitude wide = f.magnitude code * f.coarseness := by
  obtain ⟨binade, significand, hsplits⟩ := f.exists_splits code
  have hbinade := (hsplits.lt_infinity_iff hf.toRegular).mp h
  have hsignificand : significand < 2 ^ (binary64.fractionBits + 1) :=
    Nat.lt_of_lt_of_le hsplits.lt
      (Nat.pow_le_pow_right (by omega) (Nat.succ_le_succ hf.fractionBits_le))
  have hplaces : binade + (binary64.quantumPlaces - f.quantumPlaces) ≤ binary64.topBinade := by
    have := hf.topBinade_le
    omega
  obtain ⟨wide, hwide, hmagnitude⟩ :=
    Format.exists_code regular_binary64 hsignificand hplaces
  refine ⟨wide, hwide, ?_⟩
  rw [hmagnitude, hsplits.magnitude_eq, coarseness, Nat.pow_eq, Nat.pow_add, Nat.mul_assoc]

/-- A pattern denotes what it is read as. -/
theorem denotes_decode (hf : f.Widens) (h : pattern % f.signPlace ≤ f.infinity) :
    f.Denotes pattern (f.decode pattern) := by
  simp only [decode, if_neg (Nat.not_lt.mpr h)]
  by_cases hinf : pattern % f.signPlace = f.infinity
  · rw [if_pos hinf]
    have hlt := Binary64.infinity_lt_signPlace
    exact .infinite (Binary64.isNegative_ofCode _ hlt) hinf
      (Binary64.isInfinite_iff.mpr (Binary64.code_ofCode _ hlt))
  · have hcode : pattern % f.signPlace < f.infinity := by omega
    obtain ⟨wide, hwide, hmagnitude⟩ := hf.exists_code hcode
    have hnearest : binary64.nearest (f.magnitude (pattern % f.signPlace) * f.coarseness) 1 =
        wide := by
      have hexact := binary64.nearest_magnitude wide Nat.one_pos
      rwa [Nat.mul_one, hmagnitude, Nat.min_eq_right (Nat.le_of_lt hwide)] at hexact
    rw [if_neg hinf]
    refine .finite (Binary64.isNegative_ofQuotient _ _ _) hcode ?_ ?_
    · rw [Binary64.isFinite_iff, Binary64.code_ofQuotient, hnearest]
      exact hwide
    · rw [Binary64.quanta, Binary64.code_ofQuotient, hnearest, hmagnitude]

/-- A pattern decodes to no number exactly if it is none. -/
theorem isNaN_decode_iff :
    (f.decode pattern).isNaN = true ↔ f.infinity < pattern % f.signPlace := by
  simp only [decode]
  split
  · rename_i hnan
    exact iff_of_true Binary64.isNaN_nan hnan
  · rename_i hnumber
    refine iff_of_false ?_ hnumber
    split
    · rw [Bool.not_eq_true, Binary64.isNaN_eq_false_iff, Binary64.infinity,
        Binary64.code_ofCode _ Binary64.infinity_lt_signPlace]
    · rw [Bool.not_eq_true]
      exact Binary64.isNaN_ofQuotient _ _ _

/-- A number that is a pattern's number is the one it decodes to. -/
theorem denotes_iff (hf : f.Widens) (h : pattern % f.signPlace ≤ f.infinity) :
    f.Denotes pattern x ↔ x = f.decode pattern := by
  constructor
  · intro hx
    exact hx.unique (denotes_decode hf h)
  · intro hx
    rw [hx]
    exact denotes_decode hf h

/-! ### Encoding -/

/-- What is no number is written as the quiet pattern. -/
theorem encode_of_isNaN (h : x.isNaN = true) : f.encode x = f.quietNaN := by
  rw [encode, if_pos h]

/-- What a number is encoded as is a number. -/
theorem encode_mod_le (hf : f.Regular) (h : x.isNaN = false) :
    f.encode x % f.signPlace ≤ f.infinity := by
  have hle : (if x.isInfinite then f.infinity else f.nearest x.quanta f.coarseness) ≤
      f.infinity := by
    split
    · exact Nat.le_refl _
    · exact f.nearest_le_infinity _ _
  have hlt := Nat.lt_trans f.infinity_lt_quietNaN hf.quietNaN_lt_signPlace
  simp only [encode, h, Bool.false_eq_true, if_false]
  rw [mod_signPlace _ (Nat.lt_of_le_of_lt hle hlt)]
  exact hle

/-- A pattern consists of a sign and a code. -/
theorem encode_lt (hf : f.Regular) (x : Binary64) : f.encode x < 2 * f.signPlace := by
  have hnan := hf.quietNaN_lt_signPlace
  have hinf := f.infinity_lt_quietNaN
  have hnearest := f.nearest_le_infinity x.quanta f.coarseness
  simp only [encode]
  split_ifs <;> omega

end Format

namespace FloatWidth

/-- The numbers of every width are doubles. -/
theorem widens (w : FloatWidth) : w.format.Widens := by
  cases w <;> exact ⟨⟨by decide, by decide⟩, by decide, by decide⟩

/-- Patterns fill the bytes of their width. -/
theorem pow_bytes (w : FloatWidth) : 256 ^ w.bytes = 2 * w.format.signPlace := by
  cases w <;> rfl

end FloatWidth

end DataLink
