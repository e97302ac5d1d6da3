import DataLink.Proofs.FloatFields
import DataLink.Proofs.Nearest
import Mathlib.Logic.ExistsUnique

/-!
# Floats that are sent

Of a number a field sends the nearest one of its width, once the offset is subtracted. If that is
too large it sends nil, as it does for a cell without a number. An infinity is sent as it is. This
says what is read at the other end without a word about patterns, and exactly one number or nil
meets it.
-/

namespace DataLink

namespace Format

variable {f : Format} {x y : Binary64}

/-- The second number is the one of the format that is nearest to the first, with the same sign. -/
structure Narrows (f : Format) (x y : Binary64) : Prop where
  sign : y.isNegative = x.isNegative
  finite : y.isFinite = true
  nearest : ∃ code < f.infinity, f.IsNearest x.quanta f.coarseness code ∧
    y.quanta = f.magnitude code * f.coarseness

/-- Nearest to the number is what stands in for infinity. -/
def Overflows (f : Format) (x : Binary64) : Prop := f.IsNearest x.quanta f.coarseness f.infinity

/-- A number that does not overflow has a nearest one. -/
theorem exists_narrows (hf : f.Widens) (h : ¬ f.Overflows x) : ∃ y, f.Narrows x y := by
  have hnearest := isNearest_nearest hf.toRegular x.quanta f.coarseness_pos
  have hne : f.nearest x.quanta f.coarseness ≠ f.infinity := by
    intro heq
    rw [heq] at hnearest
    exact h hnearest
  have hcode : f.nearest x.quanta f.coarseness < f.infinity :=
    Nat.lt_of_le_of_ne hnearest.le_infinity hne
  obtain ⟨wide, hwide, hmagnitude⟩ := hf.exists_code hcode
  have hlt : wide < binary64.signPlace := Nat.lt_trans hwide Binary64.infinity_lt_signPlace
  refine ⟨.ofCode x.isNegative wide, Binary64.isNegative_ofCode _ hlt, ?_, _, hcode, hnearest, ?_⟩
  · rw [Binary64.isFinite_iff, Binary64.code_ofCode _ hlt]
    exact hwide
  · rw [Binary64.quanta, Binary64.code_ofCode _ hlt, hmagnitude]

/-- The code of the pattern that a finite number is encoded as. -/
theorem encode_mod (hf : f.Regular) (h : x.isFinite = true) :
    f.encode x % f.signPlace = f.nearest x.quanta f.coarseness := by
  have hlt := Nat.lt_trans f.infinity_lt_quietNaN hf.quietNaN_lt_signPlace
  simp only [encode, Binary64.isNaN_of_isFinite h, Binary64.isInfinite_of_isFinite h,
    Bool.false_eq_true, if_false]
  exact mod_signPlace _ (Nat.lt_of_le_of_lt (f.nearest_le_infinity _ _) hlt)

/-- The sign of the pattern that a number is encoded as. -/
theorem signPlace_le_encode (hf : f.Regular) (h : x.isNaN = false) :
    decide (f.signPlace ≤ f.encode x) = x.isNegative := by
  have hlt := Nat.lt_trans f.infinity_lt_quietNaN hf.quietNaN_lt_signPlace
  have hle := f.nearest_le_infinity x.quanta f.coarseness
  simp only [encode, h, Bool.false_eq_true, if_false]
  cases x.isNegative with
  | true =>
    rw [if_pos rfl]
    exact decide_eq_true (Nat.le_add_right _ _)
  | false =>
    rw [if_neg Bool.false_ne_true, decide_eq_false_iff_not]
    split <;> omega

/-- What has a nearest number does not overflow. -/
theorem Narrows.not_overflows (h : f.Narrows x y) : ¬ f.Overflows x := by
  obtain ⟨-, -, code, hcode, hnearest, -⟩ := h
  intro hlarge
  exact Nat.ne_of_lt hcode (hnearest.unique f.coarseness_pos hlarge)

/-- A finite number is encoded as the pattern of the nearest one. -/
theorem Narrows.denotes (hf : f.Regular) (hx : x.isFinite = true) (h : f.Narrows x y) :
    f.Denotes (f.encode x) y := by
  obtain ⟨hsign, hfinite, code, hcode, hnearest, hquanta⟩ := h
  have hmod : f.encode x % f.signPlace = code := by
    rw [encode_mod hf hx, hnearest.eq_nearest hf f.coarseness_pos]
  refine .finite ?_ ?_ hfinite ?_
  · rw [hsign, signPlace_le_encode hf (Binary64.isNaN_of_isFinite hx)]
  · rw [hmod]
    exact hcode
  · rw [hmod, hquanta]

/-- A number overflows exactly if it is encoded as an infinity. -/
theorem isInfinity_encode_iff (hf : f.Regular) (hx : x.isFinite = true) :
    f.isInfinity (f.encode x) = true ↔ f.Overflows x := by
  have hnearest := isNearest_nearest hf x.quanta f.coarseness_pos
  rw [isInfinity, decide_eq_true_iff, encode_mod hf hx]
  constructor
  · intro heq
    rwa [heq] at hnearest
  · intro h
    exact (h.eq_nearest hf f.coarseness_pos).symm

/-- An infinity is encoded as one. -/
theorem denotes_encode_of_isInfinite (hf : f.Regular) (h : x.isInfinite = true) :
    f.Denotes (f.encode x) x := by
  have hlt := Nat.lt_trans f.infinity_lt_quietNaN hf.quietNaN_lt_signPlace
  have hnan := Binary64.isNaN_of_isInfinite h
  refine .infinite (signPlace_le_encode hf hnan).symm ?_ h
  simp only [encode, hnan, h, Bool.false_eq_true, if_false, if_true]
  exact mod_signPlace _ hlt

end Format

namespace FloatField

variable {f : FloatField} {value : Option Value} {x : Binary64} {number number' : Option Binary64}

/-- The number that is sent for the cell's value. None stands for nil. -/
inductive Sends (f : FloatField) : Option Value → Option Binary64 → Prop where
  /-- Nil is sent for a cell without a number. -/
  | nil {value : Option Value} (h : ∀ x, value = some (.float x) → x.isNaN = true) :
    f.Sends value none
  /-- An infinity is sent as it is. -/
  | infinite {x : Binary64} (h : x.isInfinite = true) : f.Sends (some (.float x)) (some x)
  /-- Nil is sent if the offset makes a finite number infinite. -/
  | displaced {x : Binary64} (hx : x.isFinite = true)
    (h : (x.sub (f.offset.getD .zero)).isInfinite = true) : f.Sends (some (.float x)) none
  /-- Nil is sent for a finite number that is too large for the width. -/
  | tooLarge {x : Binary64} (hx : x.isFinite = true)
    (hshifted : (x.sub (f.offset.getD .zero)).isFinite = true)
    (h : f.width.format.Overflows (x.sub (f.offset.getD .zero))) : f.Sends (some (.float x)) none
  /-- Any other number is sent as the nearest one of the width, without the offset. -/
  | nearest {x y : Binary64} (hx : x.isFinite = true)
    (hshifted : (x.sub (f.offset.getD .zero)).isFinite = true)
    (h : f.width.format.Narrows (x.sub (f.offset.getD .zero)) y) :
    f.Sends (some (.float x)) (some y)

/-- Something is sent for every value. -/
theorem exists_sends (f : FloatField) (value : Option Value) : ∃ number, f.Sends value number := by
  by_cases hnumber : ∃ x, value = some (.float x) ∧ x.isNaN = false
  · obtain ⟨x, rfl, hnan⟩ := hnumber
    cases hinf : x.isInfinite with
    | true => exact ⟨_, .infinite hinf⟩
    | false =>
      have hx := Binary64.isFinite_of_isNaN_eq_false hnan hinf
      have hsub : (x.sub f.shift).isNaN = false := Binary64.isNaN_add hx f.isFinite_neg_shift
      cases hover : (x.sub f.shift).isInfinite with
      | true => exact ⟨_, .displaced hx hover⟩
      | false =>
        have hshifted := Binary64.isFinite_of_isNaN_eq_false hsub hover
        by_cases hlarge : f.width.format.Overflows (x.sub f.shift)
        · exact ⟨_, .tooLarge hx hshifted hlarge⟩
        · obtain ⟨y, hy⟩ := Format.exists_narrows f.width.widens hlarge
          exact ⟨_, .nearest hx hshifted hy⟩
  · refine ⟨none, .nil fun x hx => ?_⟩
    by_contra hnan
    exact hnumber ⟨x, hx, Bool.eq_false_of_not_eq_true hnan⟩

/-- What is no number is sent as nil. -/
theorem wireValue_of_nil (h : ∀ x, value = some (.float x) → x.isNaN = true) :
    (f.wireValue value).isNaN = true := by
  cases value with
  | none => exact Binary64.isNaN_nan
  | some v =>
    cases v with
    | float x =>
      have hnan := h x rfl
      rw [f.wireValue_of_not_isFinite (Binary64.isFinite_of_isNaN hnan), Binary64.sub,
        Binary64.add_of_isNaN hnan]
      exact Binary64.isNaN_nan
    | _ => exact Binary64.isNaN_nan

/-- What stands for nil is read as nil. -/
theorem decode_encode_of_nil
    (h : f.width.format.infinity <
      pattern f.width (f.wireValue value) % f.width.format.signPlace) :
    f.decode (f.encode value) = none := by
  rwa [decode_eq_none_iff, toNat_encode]

/-- A pattern is read as the number that it denotes. -/
theorem decode_encode_of_denotes {y : Binary64}
    (h : f.width.format.Denotes (pattern f.width (f.wireValue value)) y) :
    f.decode (f.encode value) = some (.float y) := by
  have hdecode := (Format.denotes_iff f.width.widens h.mod_le).mp h
  rw [decode, toNat_encode, ← hdecode, h.isNaN_eq_false]
  rfl

/-- What is sent is what is read. -/
theorem Sends.decode_encode (h : f.Sends value number) :
    f.decode (f.encode value) = number.map .float := by
  have hf := f.width.widens.toRegular
  cases h with
  | nil h =>
    exact decode_encode_of_nil ((pattern_nil_iff _ _).mpr (.inl (wireValue_of_nil h)))
  | @infinite x h =>
    have hwire : f.wireValue (some (.float x)) = x := by
      rw [f.wireValue_of_not_isFinite (Binary64.isFinite_of_isInfinite h), Binary64.sub,
        Binary64.add_of_isInfinite h f.isFinite_neg_shift]
    have hpattern : pattern f.width x = f.width.format.encode x := by
      rw [pattern, Binary64.isFinite_of_isInfinite h, Bool.false_and, if_neg Bool.false_ne_true]
    refine decode_encode_of_denotes ?_
    rw [hwire, hpattern]
    exact Format.denotes_encode_of_isInfinite hf h
  | @displaced x hx h =>
    exact decode_encode_of_nil ((f.wire_nil_iff x).mpr (.inr ⟨hx, .inl h⟩))
  | @tooLarge x hx hshifted h =>
    have hlarge := (Format.isInfinity_encode_iff hf hshifted).mpr h
    exact decode_encode_of_nil ((f.wire_nil_iff x).mpr (.inr ⟨hx, .inr hlarge⟩))
  | @nearest x y hx hshifted h =>
    have hwire : f.wireValue (some (.float x)) = x.sub f.shift := by
      rw [f.wireValue_of_isFinite hx]
      exact if_neg (Bool.eq_false_iff.mp (Binary64.isInfinite_of_isFinite hshifted))
    have hkept : f.width.format.isInfinity (f.width.format.encode (x.sub f.shift)) = false :=
      Bool.eq_false_of_not_eq_true fun hinf =>
        h.not_overflows ((Format.isInfinity_encode_iff hf hshifted).mp hinf)
    refine decode_encode_of_denotes ?_
    rw [hwire, pattern, hkept, Bool.and_false, if_neg Bool.false_ne_true]
    exact h.denotes hf hshifted

/-- Nothing else is sent. -/
theorem Sends.unique (h : f.Sends value number) (h' : f.Sends value number') : number = number' :=
  Option.map_injective (fun _ _ => Value.float.inj) (h.decode_encode.symm.trans h'.decode_encode)

/-- Exactly one number, or nil, is sent for every value. -/
theorem existsUnique_sends (f : FloatField) (value : Option Value) :
    ∃! number, f.Sends value number := by
  obtain ⟨number, h⟩ := f.exists_sends value
  exact ⟨number, h, fun _ h' => h'.unique h⟩

/-- What is sent depends on nothing but the width and the offset. -/
theorem Sends.congr {g : FloatField} (h : f.Sends value number) (hwidth : g.width = f.width)
    (hoffset : g.offset = f.offset) : g.Sends value number := by
  cases h with
  | nil h => exact .nil h
  | infinite h => exact .infinite h
  | displaced hx h =>
    rw [← hoffset] at h
    exact .displaced hx h
  | tooLarge hx hshifted h =>
    rw [← hoffset] at hshifted
    rw [← hoffset, ← hwidth] at h
    exact .tooLarge hx hshifted h
  | nearest hx hshifted h =>
    rw [← hoffset] at hshifted
    rw [← hoffset, ← hwidth] at h
    exact .nearest hx hshifted h

end FloatField

end DataLink
