import DataLink.Packet.Port
import DataLink.Proofs.Decoding
import DataLink.Proofs.Denotation
import DataLink.Proofs.Numerals

/-!
# Floats that arrive as nil

What is not a number stands for nil on the wire. A field sends it if its cell has no number, and
also if the offset or the width makes the cell's finite number infinite. So an infinity is on the
wire only if the cell holds one.
-/

namespace DataLink

namespace FloatField

variable {f g : FloatField} {cells : Cells} {x : Binary64}

/-- The field on its own, with this staged. -/
def port (f : FloatField) (staged : Option Value) : Port := ⟨.field (.float f), [staged]⟩

/-- What is added on arrival is finite. -/
theorem isFinite_shift (f : FloatField) : f.shift.isFinite = true := by
  have hfinite := f.finite
  unfold shift
  cases hoffset : f.offset with
  | none => exact Binary64.isFinite_zero
  | some offset =>
    rw [hoffset] at hfinite
    exact hfinite

/-- What is added before sending is finite. -/
theorem isFinite_neg_shift (f : FloatField) : f.shift.neg.isFinite = true := by
  rw [Binary64.isFinite_neg, f.isFinite_shift]

/-- A port to a float cell sends the encoding of the value that the cell has. -/
theorem emit_port (f : FloatField) (staged : Option Value) {slot : Slot Binary64}
    (h : cells.get? f.binding.cell = some (.float slot)) :
    (f.port staged).emit cells = f.encode (slot.value.map .float) := by
  have hvalue : cells.value? f.binding.cell = slot.value.map .float := by
    rw [Cells.value?, h, Option.bind_some, Cell.value?]
  rw [Port.emit, port, Packet.emit, Field.encode, Field.binding, hvalue]

/-- The field eats as many bytes as it is wide. -/
theorem eat_port (f : FloatField) (staged : Option Value) {input : Bytes}
    (h : input.length = f.width.bytes) :
    (f.port staged).eat input = (f.port (f.decode input), .ok f.width.bytes) := by
  have hdecode : (Packet.field (.float f)).decode input =
      ⟨[f.decode input], .ok f.width.bytes⟩ := by
    rw [Packet.decode, Field.size, Packet.needing_of_le _ (Nat.le_of_eq h.symm), ← h,
      List.take_length, Field.decode]
  simp only [Port.eat, port, hdecode]
  rfl

/-! ### Patterns -/

/-- Nothing is decoded from exactly those patterns that are no numbers. -/
theorem decode_eq_none_iff (f : FloatField) (input : Bytes) :
    f.decode input = none ↔
      f.width.format.infinity < input.toNat % f.width.format.signPlace := by
  rw [← Format.isNaN_decode_iff]
  simp only [decode]
  split <;> simp only [*, reduceCtorEq, Bool.false_eq_true]

/-- Every pattern fits its width. -/
theorem pattern_lt (w : FloatWidth) (x : Binary64) : pattern w x < 2 * w.format.signPlace := by
  have hnan := w.widens.quietNaN_lt_signPlace
  simp only [pattern]
  split
  · omega
  · exact Format.encode_lt w.widens.toRegular x

/-- Reading gives the pattern back that was written. -/
theorem toNat_encode (f : FloatField) (value : Option Value) :
    (f.encode value).toNat = pattern f.width (f.wireValue value) := by
  rw [encode, Bytes.toNat_ofNat, f.width.pow_bytes, Nat.mod_eq_of_lt (pattern_lt _ _)]

/-- The pattern that stands for nil is no infinity. -/
theorem isInfinity_quietNaN (w : FloatWidth) : w.format.isInfinity w.format.quietNaN = false := by
  have hlt := w.format.infinity_lt_quietNaN
  rw [Format.isInfinity, w.widens.quietNaN_mod]
  exact decide_eq_false (Nat.ne_of_gt hlt)

/-- Only infinities are written as infinities. -/
theorem isInfinity_pattern (w : FloatWidth) (h : x.isInfinite = false) :
    w.format.isInfinity (pattern w x) = false := by
  simp only [pattern]
  split
  · exact isInfinity_quietNaN w
  · rename_i hkept
    rcases x.isNaN_or_isInfinite_or_isFinite with hnan | hinf | hfinite
    · rw [Format.encode_of_isNaN hnan]
      exact isInfinity_quietNaN w
    · rw [h] at hinf
      cases hinf
    · rw [hfinite, Bool.true_and] at hkept
      exact Bool.eq_false_of_not_eq_true hkept

/-- Written as nil is what is no number, and what is finite but too large for the width. -/
theorem pattern_nil_iff (w : FloatWidth) (x : Binary64) :
    w.format.infinity < pattern w x % w.format.signPlace ↔
      x.isNaN = true ∨ x.isFinite = true ∧ w.format.isInfinity (w.format.encode x) = true := by
  have hquiet : w.format.infinity < w.format.quietNaN % w.format.signPlace := by
    rw [w.widens.quietNaN_mod]
    exact w.format.infinity_lt_quietNaN
  rw [← Bool.and_eq_true]
  simp only [pattern]
  split
  · rename_i hlarge
    exact iff_of_true hquiet (.inr hlarge)
  · rename_i hkept
    rw [or_iff_left hkept]
    constructor
    · intro hnil
      by_contra hnumber
      have hle := Format.encode_mod_le w.widens.toRegular (Bool.eq_false_of_not_eq_true hnumber)
      omega
    · intro hnan
      rw [Format.encode_of_isNaN hnan]
      exact hquiet

/-! ### Values -/

/-- The number that a finite number is sent as. -/
theorem wireValue_of_isFinite (f : FloatField) (h : x.isFinite = true) :
    f.wireValue (some (.float x)) =
      if (x.sub f.shift).isInfinite then .nan else x.sub f.shift := by
  rw [wireValue, h, Bool.true_and]

/-- The offset does not matter for what is not finite. -/
theorem wireValue_of_not_isFinite (f : FloatField) (h : x.isFinite = false) :
    f.wireValue (some (.float x)) = x.sub f.shift := by
  rw [wireValue, h, Bool.false_and, if_neg Bool.false_ne_true]

/-- What a number is sent as is nil for one of three reasons. -/
theorem wire_nil_iff (f : FloatField) (x : Binary64) :
    f.width.format.infinity <
        pattern f.width (f.wireValue (some (.float x))) % f.width.format.signPlace ↔
      x.isNaN = true ∨ x.isFinite = true ∧ ((x.sub f.shift).isInfinite = true ∨
        f.width.format.isInfinity (f.width.format.encode (x.sub f.shift)) = true) := by
  rw [pattern_nil_iff]
  rcases x.isNaN_or_isInfinite_or_isFinite with hnan | hinf | hfinite
  · have hwire : f.wireValue (some (.float x)) = .nan := by
      rw [f.wireValue_of_not_isFinite (Binary64.isFinite_of_isNaN hnan), Binary64.sub,
        Binary64.add_of_isNaN hnan]
    rw [hwire]
    exact iff_of_true (.inl Binary64.isNaN_nan) (.inl hnan)
  · have hwire : f.wireValue (some (.float x)) = x := by
      rw [f.wireValue_of_not_isFinite (Binary64.isFinite_of_isInfinite hinf), Binary64.sub,
        Binary64.add_of_isInfinite hinf f.isFinite_neg_shift]
    rw [hwire, Binary64.isNaN_of_isInfinite hinf, Binary64.isFinite_of_isInfinite hinf]
    simp only [Bool.false_eq_true, false_and]
  · have hnumber : (x.sub f.shift).isNaN = false :=
      Binary64.isNaN_add hfinite f.isFinite_neg_shift
    rw [f.wireValue_of_isFinite hfinite, Binary64.isNaN_of_isFinite hfinite, hfinite]
    cases hover : (x.sub f.shift).isInfinite with
    | true => exact iff_of_true (.inl Binary64.isNaN_nan) (.inr ⟨rfl, .inl rfl⟩)
    | false =>
      have hshifted := Binary64.isFinite_of_isNaN_eq_false hnumber hover
      simp only [Bool.false_eq_true, if_false, hnumber, hshifted, false_or, true_and]

/-- The offset makes no infinity of a finite number. -/
theorem isInfinite_wireValue (f : FloatField) (h : x.isFinite = true) :
    (f.wireValue (some (.float x))).isInfinite = false := by
  rw [f.wireValue_of_isFinite h]
  split
  · decide
  · rename_i hkept
    exact Bool.eq_false_of_not_eq_true hkept

/-- Nil arrives exactly if the cell has no number or if its finite number becomes infinite, by the
offset or by rounding to the width. A finite number is never sent as an infinity. -/
theorem arrives_nil_iff {f g : FloatField} (hwidth : g.width = f.width) {cells : Cells}
    {slot : Slot Binary64} (hcell : cells.get? f.binding.cell = some (.float slot))
    (kept old : Option Value) :
    ∃ staged, (g.port old).eat ((f.port kept).emit cells) = (g.port staged, .ok f.width.bytes) ∧
      (staged = none ↔ slot.value = none ∨ ∃ x, slot.value = some x ∧
        (x.isNaN = true ∨ x.isFinite = true ∧ ((x.sub f.shift).isInfinite = true ∨
          f.width.format.isInfinity (f.width.format.encode (x.sub f.shift)) = true))) ∧
      ∀ x, slot.value = some x → x.isFinite = true →
        f.width.format.isInfinity ((f.port kept).emit cells).toNat = false := by
  rw [f.emit_port kept hcell, toNat_encode]
  have hlength : (f.encode (slot.value.map .float)).length = g.width.bytes := by
    rw [hwidth]
    exact Bytes.length_ofNat _ _
  refine ⟨_, by rw [g.eat_port old hlength, hwidth], ?_, ?_⟩
  · rw [decode_eq_none_iff, hwidth, toNat_encode]
    cases hvalue : slot.value with
    | none =>
      have hnil := (pattern_nil_iff f.width .nan).mpr (.inl Binary64.isNaN_nan)
      exact iff_of_true hnil (.inl rfl)
    | some x =>
      simp only [Option.map_some, wire_nil_iff, reduceCtorEq, Option.some.injEq, false_or,
        exists_eq_left']
  · intro x hvalue hfinite
    rw [hvalue]
    exact isInfinity_pattern _ (f.isInfinite_wireValue hfinite)

end FloatField

namespace Altimeter

/-- Two bytes for a height, counted from ten thousand. -/
def field : FloatField where
  binding := ⟨"height", true, false⟩
  width := .two
  offset := some ⟨0x40C3880000000000⟩
  finite := by decide

/-- A million is out of reach. -/
def slot : Slot Binary64 := ⟨some ⟨0x412E848000000000⟩, 1⟩

/-- The height is the only cell. -/
def cells : Cells := ⟨[("height", .float slot)], by decide⟩

/-- Nil arrives as nil, whatever was staged before. -/
theorem arrives_nil_iff_altimeter :
    (field.port (some (.float .zero))).eat ((field.port none).emit cells) =
      (field.port none, .ok 2) := by
  have hlost : field.width.format.isInfinity (field.width.format.encode
      (Binary64.sub ⟨0x412E848000000000⟩ field.shift)) = true := by decide +kernel
  obtain ⟨staged, heat, hnil, -⟩ :=
    @FloatField.arrives_nil_iff field field rfl cells slot rfl none (some (.float .zero))
  rw [heat, hnil.mpr (.inr ⟨_, rfl, .inr ⟨by decide, .inr hlost⟩⟩)]
  rfl

end Altimeter

end DataLink
