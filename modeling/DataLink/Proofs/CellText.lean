import DataLink.Proofs.ShortestText
import DataLink.Proofs.TextAssignments

/-!
# Cells read back from their text

The text of a finite value is read as this value by the kind it belongs to, so the text of a cell
can be assigned to any cell of the same kind and brings the value along. A text that is refused
changes nothing, and one that is read counts as one assignment, to the cell of the name alone.
-/

namespace DataLink

open Reader

/-- No character of a number is white space. -/
theorem not_whiteSpace_of_numberChar {c : Char} (h : NumberChar c) : ¬ WhiteSpace c := by
  have hbounds : 45 ≤ c.toNat ∧ c.toNat ≤ 57 := by
    rcases h with h | rfl | rfl
    · have := isDigit_iff.mp h
      simp at this
      omega
    · decide
    · decide
  unfold WhiteSpace
  omega

/-- Integers are written with characters of numbers. -/
theorem numberChar_of_mem_toString_int {n : Int} {c : Char} (h : c ∈ (toString n).toList) :
    NumberChar c := by
  rw [toList_toString_int] at h
  split_ifs at h
  · exact .inl (digits_toDigits _ c h)
  · exact (List.mem_cons.mp h).elim (fun h => .inr (.inr h)) fun h => .inl (digits_toDigits _ c h)

/-- Naturals are written with characters of numbers. -/
theorem numberChar_of_mem_toString_nat {n : Nat} {c : Char} (h : c ∈ (toString n).toList) :
    NumberChar c := by
  rw [Nat.toString_eq_repr, Nat.toList_repr] at h
  exact .inl (digits_toDigits _ c h)

/-- Finite floats are written with characters of numbers. -/
theorem Binary64.numberChar_of_mem_text {x : Binary64} (hx : x.isFinite = true) {c : Char}
    (h : c ∈ (x.text .plain).toList) : NumberChar c := by
  obtain ⟨digits, n, count, htext, hdigits, -⟩ := exists_positional_text hx
  rw [htext] at h
  exact hdigits.numberChar_of_mem_signed _ h

/-! ### Values -/

/-- Values that cells are assigned from text: all but infinities and what is not a number. -/
def Value.Finite : Value → Prop
  | .float x => x.isFinite = true
  | _ => True

/-- A text that is not the word for nil and that has nothing to trim. -/
structure Literal (text : List Char) : Prop where
  ne_nil : String.ofList (text.map Char.toLower) ≠ Value.nilText
  trimmed : trimBlanks text = text

/-- What consists of characters of numbers is a literal. -/
theorem Literal.of_numberChar {text : List Char} (h : ∀ c ∈ text, NumberChar c) : Literal text where
  ne_nil := word_ne h (by decide)
  trimmed := trimBlanks_eq_self_iff.mpr
    ⟨fun c hc => not_whiteSpace_of_numberChar (h c (List.mem_of_mem_head? hc)),
      fun c hc => not_whiteSpace_of_numberChar (h c (List.mem_of_getLast? hc))⟩

/-- Every finite value is written as a literal. -/
theorem Value.literal_text {v : Value} (h : v.Finite) : Literal v.text.toList := by
  cases v with
  | bool b =>
    cases b
    · exact ⟨by decide, by decide⟩
    · exact ⟨by decide, by decide⟩
  | signed n => exact .of_numberChar fun c => numberChar_of_mem_toString_int
  | unsigned n => exact .of_numberChar fun c => numberChar_of_mem_toString_nat
  | float x => exact .of_numberChar fun c => Binary64.numberChar_of_mem_text h

/-- A value is read back from its text by its own kind. -/
theorem CellKind.read?_text {v : Value} (h : v.Finite) :
    v.kind.read? v.text.toList = some (some v) := by
  have hword := (Value.literal_text h).ne_nil
  simp only [CellKind.read?, if_neg hword]
  cases v with
  | bool b => cases b <;> decide
  | signed n => simp only [Value.kind, Value.text, readSigned?_toString, Option.map_some]
  | unsigned n => simp only [Value.kind, Value.text, readUnsigned?_toString, Option.map_some]
  | float x =>
    have hfinite : x.isFinite = true := h
    simp only [Value.kind, Value.text, Binary64.readBinary64?_text hfinite, hfinite, if_true]

/-- The text of a cell, with white space around it, is read as the cell's value. -/
theorem Cell.read?_text {cell : Cell} {before after : List Char}
    (hfinite : ∀ v, cell.value? = some v → v.Finite) (hbefore : Blank before)
    (hafter : Blank after) : cell.kind.read?
      (trimBlanks (String.ofList (before ++ cell.text.toList ++ after)).toList) =
        some cell.value? := by
  rw [String.toList_ofList, trimBlanks_append hbefore hafter, text]
  cases hvalue : cell.value? with
  | none => exact Cells.read?_nil cell.kind
  | some v =>
    rw [Option.map_some, Option.getD_some, (Value.literal_text (hfinite v hvalue)).trimmed,
      ← kind_of_value? hvalue, CellKind.read?_text (hfinite v hvalue)]

/-! ### Cells -/

namespace Cells

variable {cells after : Cells} {name text : String} {cell : Cell} {value : Option Value}

/-- One assignment to the cell of a name: its serial goes up by one, and other cells stay as they
are. -/
structure AssignedOnce (cells after : Cells) (name : String) : Prop where
  named : ∃ cell next, cells.get? name = some cell ∧ after.get? name = some next ∧
    next.kind = cell.kind ∧ next.serial = cell.serial + 1
  others : ∀ other, other ≠ name → after.get? other = cells.get? other

/-- An assigned cell is found with what was assigned. -/
theorem get?_put_self (h : cells.get? name = some cell) (value : Option Value) :
    (cells.put name value).get? name = some (cell.put value) := by
  rw [get?_put, h, Option.map_some, if_pos rfl]

/-- What was assigned from text was assigned once. -/
theorem assignedOnce_of_assignText (h : cells.assignText name text = .ok after) :
    cells.AssignedOnce after name := by
  obtain ⟨cell, value, hcell, hread, rfl⟩ := assignText_eq_ok_iff.mp h
  exact ⟨⟨cell, _, hcell, get?_put_self hcell value, cell.kind_put value,
    Cell.serial_put_of_read? hread⟩, fun other hne => get?_of_assignText h hne⟩

/-- The text of a cell, with white space around it, assigns the cell's value to a cell of the same
kind. -/
theorem exists_assignText_text {source : Cell} {left right : List Char}
    (h : cells.get? name = some cell) (hkind : source.kind = cell.kind)
    (hfinite : ∀ v, source.value? = some v → v.Finite) (hleft : Blank left)
    (hright : Blank right) :
    ∃ after, cells.assignText name (String.ofList (left ++ source.text.toList ++ right)) =
      .ok after ∧ after.value? name = source.value? := by
  have hread := Cell.read?_text hfinite hleft hright
  rw [hkind] at hread
  refine ⟨_, assignText_of_read? h hread, ?_⟩
  rw [value?, get?_put_self h, Option.bind_some]
  cases hvalue : source.value? with
  | none => exact cell.value?_put_none
  | some v => exact Cell.value?_put (hkind ▸ Cell.kind_of_value? hvalue)

/-- An assignment from text on shared cells fails and leaves all of them as they were, or it assigns
once, to the cell of the name. It succeeds with the text of this cell, or of another one of its
kind, whatever white space surrounds the text, and then the cell has the value that was written. -/
theorem setText_agrees_with_text (cells : Cells) (name : String) :
    (∀ text,
      (∃ fault, cells.assignText name text = .error fault ∧
        (setText name text).run.run cells = (.error fault, cells)) ∨
      ∃ after, cells.assignText name text = .ok after ∧
        (setText name text).run.run cells = (.ok (), after) ∧ cells.AssignedOnce after name) ∧
    ∀ cell source : Cell, cells.get? name = some cell → source.kind = cell.kind →
      (∀ v, source.value? = some v → v.Finite) → ∀ left right, Blank left → Blank right →
        ∃ after,
          (setText name (String.ofList (left ++ source.text.toList ++ right))).run.run cells =
            (.ok (), after) ∧ after.value? name = source.value? := by
  constructor
  · intro text
    cases h : cells.assignText name text with
    | error fault => exact .inl ⟨fault, rfl, by rw [run_setText, h]⟩
    | ok after => exact .inr ⟨after, rfl, by rw [run_setText, h], assignedOnce_of_assignText h⟩
  · intro cell source hcell hkind hfinite left right hleft hright
    obtain ⟨after, hassign, hvalue⟩ :=
      exists_assignText_text hcell hkind hfinite hleft hright
    exact ⟨after, by rw [run_setText, hassign], hvalue⟩

/-- The smallest number below zero, with a tab before it and a new line behind it. -/
theorem setText_agrees_with_text_of_least_negative :
    let cells := (Cells.empty.declare "x" .float).put "x" (some (.float (.ofCode true 1)))
    let cell := Cell.float ⟨some (.ofCode true 1), 1⟩
    cells.get? "x" = some cell ∧ ∃ after,
      (setText "x" (String.ofList (['\t'] ++ cell.text.toList ++ ['\n']))).run.run cells =
        (.ok (), after) ∧ after.value? "x" = some (.float (.ofCode true 1)) := by
  have hcell : ((Cells.empty.declare "x" .float).put "x"
      (some (.float (.ofCode true 1)))).get? "x" = some (.float ⟨some (.ofCode true 1), 1⟩) := by
    decide
  refine ⟨hcell, (setText_agrees_with_text _ "x").2 _ _ hcell rfl ?_ ['\t'] ['\n'] ?_ ?_⟩
  · rintro v ⟨⟩
    exact (by decide : (Binary64.ofCode true 1).isFinite = true)
  · simp [Blank, WhiteSpace]
  · simp [Blank, WhiteSpace]

end Cells

end DataLink
