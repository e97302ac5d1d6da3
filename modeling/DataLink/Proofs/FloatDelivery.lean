import DataLink.Proofs.Assignments
import DataLink.Proofs.FloatFields

/-!
# Floats that are delivered

The offset is added back to what was decoded, and the sum is rounded once. So an infinity is
delivered for a finite pattern if the sum overflows. Without an offset a zero is added, which makes
a positive zero of the negative one and changes no other number.
-/

namespace DataLink

namespace FloatField

variable {f : FloatField} {cells : Cells} {slot : Slot Binary64} {bytes : Bytes} {x : Binary64}

/-- A pattern that is a number is decoded as that number. -/
theorem decode_eq_some (f : FloatField) (h : (f.width.format.decode bytes.toNat).isNaN = false) :
    f.decode bytes = some (.float (f.width.format.decode bytes.toNat)) := by
  simp only [decode, h, Bool.false_eq_true, if_false]

/-- What the cell holds once a staged number is delivered. -/
theorem get?_deliver (hwritable : f.binding.writable = true)
    (hcell : cells.get? f.binding.cell = some (.float slot)) (x : Binary64) :
    ((f.port (some (.float x))).deliver cells).get? f.binding.cell =
      some (.float (slot.put (some (x.add f.shift)))) := by
  have hput : (f.port (some (.float x))).deliver cells =
      cells.put f.binding.cell (some (.float (x.add f.shift))) := if_pos hwritable
  rw [hput, Cells.get?_put, hcell, Option.map_some, if_pos rfl, Cell.put]

/-- A staged number arrives in its cell with the offset added. -/
theorem value?_deliver (hwritable : f.binding.writable = true)
    (hcell : cells.get? f.binding.cell = some (.float slot)) (x : Binary64) :
    ((f.port (some (.float x))).deliver cells).value? f.binding.cell =
      some (.float (x.add f.shift)) := by
  rw [Cells.value?, get?_deliver hwritable hcell]
  rfl

/-- What the cell holds once a pattern was eaten and delivered. -/
theorem value?_of_eat (hwritable : f.binding.writable = true)
    (hcell : cells.get? f.binding.cell = some (.float slot)) (old : Option Value)
    (hlength : bytes.length = f.width.bytes)
    (h : (f.width.format.decode bytes.toNat).isNaN = false) :
    (((f.port old).eat bytes).1.deliver cells).value? f.binding.cell =
      some (.float ((f.width.format.decode bytes.toNat).add f.shift)) := by
  rw [f.eat_port old hlength, f.decode_eq_some h]
  exact value?_deliver hwritable hcell _

/-- What the field sends next. -/
theorem emit_deliver (hwritable : f.binding.writable = true)
    (hcell : cells.get? f.binding.cell = some (.float slot)) (x : Binary64) :
    (f.port (some (.float x))).emit ((f.port (some (.float x))).deliver cells) =
      f.encode (some (.float (x.add f.shift))) := by
  rw [f.emit_port _ (get?_deliver hwritable hcell x), Slot.put, Option.map_some]

/-! ### Sums that overflow -/

/-- No number of a narrow width is large for double precision. -/
theorem maxFinite_mul_coarseness_lt {w : FloatWidth} (h : w ≠ .eight) :
    w.format.maxFinite * w.format.coarseness < 2 ^ 970 * Binary64.perUnit := by
  cases w with
  | two => decide +kernel
  | four => decide +kernel
  | eight => exact absurd rfl h

/-- Every finite number of the narrower widths lies far below the top of the range. -/
theorem quanta_decode_lt (hwidth : f.width ≠ .eight) (pattern : Nat)
    (h : (f.width.format.decode pattern).isFinite = true) :
    (f.width.format.decode pattern).quanta < 2 ^ 970 * Binary64.perUnit := by
  have hnumber : pattern % f.width.format.signPlace ≤ f.width.format.infinity := by
    rw [← Nat.not_lt, ← Format.isNaN_decode_iff, Binary64.isNaN_of_isFinite h]
    exact Bool.false_ne_true
  cases Format.denotes_decode f.width.widens hnumber with
  | infinite _ _ hkind =>
    rw [Binary64.isFinite_of_isInfinite hkind] at h
    cases h
  | finite _ hcode _ hmagnitude =>
    rw [hmagnitude]
    exact Nat.lt_of_le_of_lt (Nat.mul_le_mul_right _
      (Format.magnitude_le_maxFinite f.width.widens.toRegular hcode))
      (maxFinite_mul_coarseness_lt hwidth)

/-- Every number arrives on eight bytes. -/
theorem decode_bits (h : x.isNaN = false) :
    Format.binary64.decode (Bytes.ofNat 8 x.bits.toNat).toNat = x := by
  have hword : x.bits.toNat < 256 ^ 8 := x.bits.toNat_lt
  have hdenotes := Format.denotes_bits h
  rw [Bytes.toNat_ofNat, Nat.mod_eq_of_lt hword]
  exact ((Format.denotes_iff FloatWidth.eight.widens hdenotes.mod_le).mp hdenotes).symm

/-- All finite patterns are delivered as finite numbers or nil exactly if the width is less than
eight bytes or the offset's magnitude is below `2 ^ 970`, half a unit of the largest finite
numbers. -/
theorem delivers_finite_iff {f : FloatField} (hwritable : f.binding.writable = true)
    {cells : Cells} {slot : Slot Binary64}
    (hcell : cells.get? f.binding.cell = some (.float slot)) (old : Option Value) :
    (∀ bytes : Bytes, bytes.length = f.width.bytes →
      (f.width.format.decode bytes.toNat).isFinite = true →
      ∀ y, (((f.port old).eat bytes).1.deliver cells).value? f.binding.cell = some (.float y) →
        y.isFinite = true) ↔
      (f.width = .eight → f.shift.quanta < 2 ^ 970 * Binary64.perUnit) := by
  constructor
  · intro hall height
    by_contra hlarge
    obtain ⟨x, hx, hover⟩ :=
      Binary64.exists_isInfinite_add f.isFinite_shift (Nat.not_lt.mp hlarge)
    have hlength : (Bytes.ofNat 8 x.bits.toNat).length = f.width.bytes := by
      rw [height]
      exact Bytes.length_ofNat _ _
    have hdecode : f.width.format.decode (Bytes.ofNat 8 x.bits.toNat).toNat = x := by
      rw [height]
      exact decode_bits (Binary64.isNaN_of_isFinite hx)
    have hpattern : (f.width.format.decode (Bytes.ofNat 8 x.bits.toNat).toNat).isFinite = true := by
      rw [hdecode]
      exact hx
    have hvalue := value?_of_eat hwritable hcell old hlength (Binary64.isNaN_of_isFinite hpattern)
    have hfinite := hall _ hlength hpattern _ hvalue
    rw [hdecode, Binary64.isFinite_of_isInfinite hover] at hfinite
    cases hfinite
  · intro hsmall bytes hlength hfinite y hy
    rw [value?_of_eat hwritable hcell old hlength (Binary64.isNaN_of_isFinite hfinite),
      Option.some.injEq, Value.float.injEq] at hy
    rw [← hy]
    apply Binary64.isFinite_add hfinite f.isFinite_shift
    by_cases height : f.width = .eight
    · exact .inr (hsmall height)
    · exact .inl (quanta_decode_lt height _ hfinite)

end FloatField

namespace Altimeter

/-- The largest height in reach is delivered. -/
theorem delivers_finite_altimeter :
    ∃ y, (((field.port none).eat [0xFF, 0x7B]).1.deliver cells).value? "height" =
      some (.float y) ∧ y.isFinite = true := by
  have hfinite : (field.width.format.decode (Bytes.toNat [0xFF, 0x7B])).isFinite = true := by
    decide +kernel
  have hvalue : (((field.port none).eat [0xFF, 0x7B]).1.deliver cells).value? "height" =
      some (.float ⟨0x40F26F0000000000⟩) := by
    decide +kernel
  have hnarrow : field.width = .eight → field.shift.quanta < 2 ^ 970 * Binary64.perUnit := by
    intro height
    cases height
  have hall := (@FloatField.delivers_finite_iff field rfl cells slot rfl none).mpr hnarrow
  exact ⟨_, hvalue, hall _ rfl hfinite _ hvalue⟩

/-- Eight bytes for a height, counted from the largest number. -/
def towering : FloatField where
  binding := ⟨"height", true, false⟩
  width := .eight
  offset := some ⟨0x7FEFFFFFFFFFFFFF⟩
  finite := by decide

/-- The largest number. -/
def largest : Bytes := [0xFF, 0xFF, 0xFF, 0xFF, 0xFF, 0xFF, 0xEF, 0x7F]

/-- The sum of two finite numbers is delivered as an infinity. -/
theorem towering_sum_is_infinite :
    (towering.width.format.decode largest.toNat).isFinite = true ∧
      (((towering.port none).eat largest).1.deliver cells).value? "height" =
        some (.float (.infinity false)) := by
  decide +kernel

end Altimeter

namespace FloatField

variable {f : FloatField} {cells : Cells} {slot : Slot Binary64} {bytes : Bytes} {x : Binary64}

/-! ### Fields without an offset -/

/-- Bytes of a width spell one of its patterns. -/
theorem toNat_lt_of_length {w : FloatWidth} (h : bytes.length = w.bytes) :
    bytes.toNat < 2 * w.format.signPlace := by
  rw [← w.pow_bytes, ← h]
  exact bytes.toNat_lt

/-- Without an offset nothing is added. -/
theorem shift_of_no_offset (h : f.offset = none) : f.shift = .zero := by
  rw [shift, h]
  rfl

/-- Without an offset a number is sent as it is. -/
theorem wireValue_of_no_offset (h : f.offset = none) (hx : x.isNaN = false) :
    f.wireValue (some (.float x)) = x := by
  have hsub : x.sub f.shift = x := by
    rw [shift_of_no_offset h, Binary64.sub_zero_eq hx]
  cases hfinite : x.isFinite with
  | true =>
    rw [f.wireValue_of_isFinite hfinite, hsub, Binary64.isInfinite_of_isFinite hfinite,
      if_neg Bool.false_ne_true]
  | false => rw [f.wireValue_of_not_isFinite hfinite, hsub]

/-- A denoted number fits the width. -/
theorem pattern_of_denotes {w : FloatWidth} {p : Nat} (h : w.format.Denotes p x)
    (hlt : p < 2 * w.format.signPlace) : pattern w x = p := by
  have hencode := h.encode_eq hlt
  rw [pattern, hencode]
  refine if_neg ?_
  rw [Bool.and_eq_true]
  rintro ⟨hfinite, hinf⟩
  cases h with
  | infinite _ _ kind =>
    rw [Binary64.isFinite_of_isInfinite kind] at hfinite
    cases hfinite
  | finite _ hcode => exact Nat.ne_of_lt hcode (of_decide_eq_true hinf)

/-- Without an offset the pattern is sent whose number the cell holds. -/
theorem encode_of_denotes {p : Nat} (h : f.offset = none) (hx : f.width.format.Denotes p x)
    (hlt : p < 2 * f.width.format.signPlace) :
    f.encode (some (.float x)) = Bytes.ofNat f.width.bytes p := by
  rw [encode, wireValue_of_no_offset h hx.isNaN_eq_false, pattern_of_denotes hx hlt]

/-- Zero is added without an offset, so only the negative zero changes. -/
theorem add_shift_of_no_offset (h : f.offset = none) (hlength : bytes.length = f.width.bytes)
    (hx : f.width.format.Denotes bytes.toNat x) :
    x.add f.shift = if bytes.toNat = f.width.format.signPlace then .zero else x := by
  have hlt := toNat_lt_of_length hlength
  have hzero := hx.code_eq_zero_iff f.width.widens.toRegular
  rw [shift_of_no_offset h, Binary64.add_zero_eq hx.isNaN_eq_false]
  by_cases hcode : x.code = 0
  · rw [if_pos hcode]
    split
    · rfl
    · rename_i hne
      -- Of the two zeros it is the positive one.
      have hpositive : ¬ f.width.format.signPlace ≤ bytes.toNat := by
        intro hle
        rw [hzero, Nat.mod_eq_sub_mod hle, Nat.mod_eq_of_lt (by omega)] at hcode
        omega
      apply Binary64.eq_of_code_eq
      · rw [hx.sign, decide_eq_false hpositive, Binary64.isNegative_zero]
      · rw [hcode, Binary64.code_zero]
  · have hne : bytes.toNat ≠ f.width.format.signPlace := by
      intro heq
      rw [hzero, heq, Nat.mod_self] at hcode
      exact hcode rfl
    rw [if_neg hcode, if_neg hne]

/-- Without an offset a pattern that is a number is stored as the number it denotes, and the same
bytes are sent again, but a positive zero is stored and sent for the negative one. -/
theorem relays_all_but_negative_zero {f : FloatField} (hoffset : f.offset = none)
    (hwritable : f.binding.writable = true) {cells : Cells} {slot : Slot Binary64}
    (hcell : cells.get? f.binding.cell = some (.float slot)) (old : Option Value) {bytes : Bytes}
    (hlength : bytes.length = f.width.bytes)
    (hnumber : bytes.toNat % f.width.format.signPlace ≤ f.width.format.infinity) :
    ∃ x, f.width.format.Denotes bytes.toNat x ∧
      (f.port old).eat bytes = (f.port (some (.float x)), .ok f.width.bytes) ∧
      let after := (f.port (some (.float x))).deliver cells
      (bytes.toNat ≠ f.width.format.signPlace →
        after.value? f.binding.cell = some (.float x) ∧
          (f.port (some (.float x))).emit after = bytes) ∧
      (bytes.toNat = f.width.format.signPlace →
        after.value? f.binding.cell = some (.float .zero) ∧
          (f.port (some (.float x))).emit after = Bytes.ofNat f.width.bytes 0) := by
  have hx := Format.denotes_decode f.width.widens hnumber
  have hlt := toNat_lt_of_length hlength
  refine ⟨_, hx, ?_, ?_⟩
  · rw [f.eat_port old hlength, f.decode_eq_some hx.isNaN_eq_false]
  generalize f.width.format.decode bytes.toNat = x at hx
  have hadd := add_shift_of_no_offset hoffset hlength hx
  have hvalue := value?_deliver hwritable hcell x
  have hemit := emit_deliver hwritable hcell x
  rw [hadd] at hvalue hemit
  constructor
  · intro hne
    rw [if_neg hne] at hvalue hemit
    refine ⟨hvalue, ?_⟩
    rw [hemit, encode_of_denotes hoffset hx hlt, ← hlength]
    exact Bytes.ofNat_of_mod_eq (Nat.mod_eq_of_lt bytes.toNat_lt)
  · intro heq
    rw [if_pos heq] at hvalue hemit
    refine ⟨hvalue, ?_⟩
    rw [hemit]
    exact encode_of_denotes hoffset (Format.denotes_zero f.width.widens.toRegular) (by omega)

end FloatField

namespace Altimeter

/-- Two bytes for a height as it is. -/
def plain : FloatField where
  binding := ⟨"height", true, false⟩
  width := .two
  offset := none
  finite := rfl

/-- The smallest positive number is relayed. -/
theorem relays_smallest_altimeter :
    ∃ x, plain.width.format.Denotes (Bytes.toNat [0x01, 0x00]) x ∧
      (plain.port none).eat [0x01, 0x00] = (plain.port (some (.float x)), .ok 2) ∧
      let after := (plain.port (some (.float x))).deliver cells
      after.value? "height" = some (.float x) ∧
        (plain.port (some (.float x))).emit after = [0x01, 0x00] := by
  obtain ⟨x, hx, heat, hrelayed, -⟩ := @FloatField.relays_all_but_negative_zero plain rfl rfl
    cells slot rfl none [0x01, 0x00] rfl (by decide)
  exact ⟨x, hx, heat, hrelayed (by decide)⟩

/-- The negative zero is stored and sent as the positive one. -/
theorem negative_zero_not_relayed :
    plain.width.format.Denotes (Bytes.toNat [0x00, 0x80]) ⟨0x8000000000000000⟩ ∧
      let port := ((plain.port none).eat [0x00, 0x80]).1
      (port.deliver cells).value? "height" = some (.float ⟨0⟩) ∧
        port.emit (port.deliver cells) = [0x00, 0x00] := by
  constructor
  · exact .finite (by decide) (by decide) (by decide) (by decide +kernel)
  · decide +kernel

end Altimeter

end DataLink
