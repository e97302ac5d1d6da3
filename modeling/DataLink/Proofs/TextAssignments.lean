import DataLink.Proofs.Assignments
import DataLink.Proofs.Trimming

/-!
# Assignments from text

A cell is assigned from text by its name, or by a text such as `speed=12`. Both ways agree exactly
for the names that such a text can spell: those without an equals sign and without white space at
their ends.

The text is read before anything is assigned. This shows once the cells are shared, so that what a
call has assigned before it fails would stay assigned.
-/

namespace DataLink

/-- A value that is read for a kind is of that kind. -/
theorem CellKind.kind_of_read? {kind : CellKind} {text : List Char} {v : Value}
    (h : kind.read? text = some (some v)) : v.kind = kind := by
  simp only [CellKind.read?] at h
  split at h
  · cases h
  · cases kind with
    | bool =>
      simp only at h
      split at h
      · cases h
        rfl
      · split at h <;> cases h
        rfl
    | signed =>
      obtain ⟨n, -, hn⟩ := Option.map_eq_some_iff.mp h
      cases hn
      rfl
    | unsigned =>
      obtain ⟨n, -, hn⟩ := Option.map_eq_some_iff.mp h
      cases hn
      rfl
    | float =>
      simp only at h
      split at h
      · split at h <;> cases h
        rfl
      · cases h

/-- Assigning what was read counts as one assignment. -/
theorem Cell.serial_put_of_read? {cell : Cell} {text : List Char} {value : Option Value}
    (h : cell.kind.read? text = some value) : (cell.put value).serial = cell.serial + 1 := by
  cases value with
  | none => exact cell.serial_put_none
  | some v => exact Cell.serial_put (CellKind.kind_of_read? h)

namespace Cells

variable {cells after : Cells} {name other text : String} {cell : Cell}

/-! ### Reading, then assigning -/

/-- Assigning from text on shared cells, step by step: what was assigned stays assigned if a later
step fails. -/
def setText (name text : String) : ExceptT CellFault (StateM Cells) Unit := do
  let cell ← (← get).lookup name
  let trimmed := trimBlanks text.toList
  match cell.kind.read? trimmed with
  | some value => modify fun cells => cells.put name value
  | none => throw (.badValue name cell.kind (String.ofList trimmed))

/-- On shared cells an assignment from text fails before it assigns anything. -/
theorem run_setText (cells : Cells) (name text : String) :
    (setText name text).run.run cells =
      match cells.assignText name text with
      | .ok after => (.ok (), after)
      | .error fault => (.error fault, cells) := by
  have hget : (ExceptT.run (get : ExceptT CellFault (StateM Cells) Cells)).run cells =
      pure (.ok cells, cells) := rfl
  have hlookup : (ExceptT.run (liftM (cells.lookup name) :
      ExceptT CellFault (StateM Cells) Cell)).run cells = pure (cells.lookup name, cells) := rfl
  simp only [setText, assignText, ExceptT.run_bind, StateT.run_bind, hget, hlookup, pure_bind]
  cases cells.lookup name with
  | error fault => rfl
  | ok cell =>
    simp only
    cases cell.kind.read? (trimBlanks text.toList) with
    | none => rfl
    | some value => rfl

/-- Assigning to a cell that was not declared fails with its name. -/
theorem assignText_of_get?_none (h : cells.get? name = none) (text : String) :
    cells.assignText name text = .error (.unknown name) := by
  simp only [assignText, lookup, h]

/-- A cell is assigned what the text is read as. -/
theorem assignText_of_read? {value : Option Value} (h : cells.get? name = some cell)
    (hread : cell.kind.read? (trimBlanks text.toList) = some value) :
    cells.assignText name text = .ok (cells.put name value) := by
  simp only [assignText, lookup, h, hread]

/-- Assigning text that is no value of the cell's kind fails with all three. -/
theorem assignText_of_read?_none (h : cells.get? name = some cell)
    (hread : cell.kind.read? (trimBlanks text.toList) = none) :
    cells.assignText name text =
      .error (.badValue name cell.kind (String.ofList (trimBlanks text.toList))) := by
  simp only [assignText, lookup, h, hread]

/-- What an assignment from text does once it succeeds. -/
theorem assignText_eq_ok_iff : cells.assignText name text = .ok after ↔
    ∃ cell value, cells.get? name = some cell ∧
      cell.kind.read? (trimBlanks text.toList) = some value ∧ after = cells.put name value := by
  cases hcell : cells.get? name with
  | none =>
    rw [assignText_of_get?_none hcell]
    simp
  | some cell =>
    cases hread : cell.kind.read? (trimBlanks text.toList) with
    | none =>
      rw [assignText_of_read?_none hcell hread]
      simp [hread]
    | some value =>
      rw [assignText_of_read? hcell hread]
      simp [hread, eq_comm]

/-- A cell that is reported as unknown is the one that was to be assigned. -/
theorem name_eq_of_unknown (h : cells.assignText name text = .error (.unknown other)) :
    name = other := by
  cases hcell : cells.get? name with
  | none =>
    rw [assignText_of_get?_none hcell] at h
    cases h
    rfl
  | some cell =>
    cases hread : cell.kind.read? (trimBlanks text.toList) with
    | none =>
      rw [assignText_of_read?_none hcell hread] at h
      cases h
    | some value =>
      rw [assignText_of_read? hcell hread] at h
      cases h

/-- Other cells are left alone. -/
theorem get?_of_assignText (h : cells.assignText name text = .ok after) (hne : other ≠ name) :
    after.get? other = cells.get? other := by
  obtain ⟨_, value, -, -, rfl⟩ := assignText_eq_ok_iff.mp h
  simp only [get?_put, if_neg hne, Option.map_id']

/-- One success is not another one with a different cell, as the serials tell. -/
theorem assignText_ne {rest : String} (hne : other ≠ name)
    (h : cells.assignText name text = .ok after) :
    cells.assignText other rest ≠ .ok after := by
  intro hother
  obtain ⟨cell, value, hcell, hread, rfl⟩ := assignText_eq_ok_iff.mp h
  have hkept := get?_of_assignText hother (Ne.symm hne)
  rw [get?_put, hcell, Option.map_some, if_pos rfl, Option.some.injEq] at hkept
  have hserial := Cell.serial_put_of_read? hread
  rw [hkept] at hserial
  have hcount := congrArg UInt64.toNat hserial
  have hlt := cell.serial.toNat_lt
  rw [UInt64.toNat_add, UInt64.toNat_one] at hcount
  omega

/-! ### Names in assignments -/

/-- The names that an assignment can spell. -/
structure Spellable (name : String) : Prop where
  no_equals : '=' ∉ name.toList
  trimmed : Trimmed name.toList

/-- An assignment is split at its first equals sign. -/
theorem splitAssignment_append {before : List Char} (h : '=' ∉ before) (rest : List Char) :
    splitAssignment (before ++ '=' :: rest) = some (before, rest) := by
  induction before with
  | nil => rfl
  | cons c before ih =>
    obtain ⟨hc, hbefore⟩ := not_or.mp (mt List.mem_cons.mpr h)
    rw [List.cons_append, splitAssignment, if_neg (Ne.symm hc), ih hbefore, Option.map_some]

/-- An assignment goes to what stands in front of the first equals sign, without the white space
around it. -/
theorem assign_append {before : List Char} (h : '=' ∉ before) (rest : List Char) (cells : Cells) :
    cells.assign (String.ofList (before ++ '=' :: rest)) =
      cells.assignText (String.ofList (trimBlanks before)) (String.ofList rest) := by
  simp only [assign, String.toList_ofList, splitAssignment_append h]

/-- A trimmed name without an equals sign can be spelled in an assignment. -/
theorem spellable_trimBlanks {before : List Char} (h : '=' ∉ before) :
    Spellable (String.ofList (trimBlanks before)) := by
  constructor
  · rw [String.toList_ofList]
    exact fun hmem => h (mem_of_mem_trimBlanks hmem)
  · rw [String.toList_ofList]
    exact trimmed_trimBlanks before

/-- A name, an equals sign and a text are joined character by character. -/
theorem append_equals (name text : String) :
    name ++ "=" ++ text = String.ofList (name.toList ++ '=' :: text.toList) := by
  rw [← String.toList_inj]
  simp

/-- Whatever the name, the assignment goes to one that can be spelled. -/
theorem exists_target (name text : String) : ∃ target rest, Spellable target ∧
    ∀ cells : Cells, cells.assign (name ++ "=" ++ text) = cells.assignText target rest := by
  by_cases hequals : '=' ∈ name.toList
  · obtain ⟨before, more, hsplit, hbefore⟩ := List.eq_append_cons_of_mem hequals
    refine ⟨_, String.ofList (more ++ '=' :: text.toList), spellable_trimBlanks hbefore, ?_⟩
    intro cells
    rw [append_equals, hsplit, List.append_assoc, List.cons_append, assign_append hbefore]
  · refine ⟨_, String.ofList text.toList, spellable_trimBlanks hequals, ?_⟩
    intro cells
    rw [append_equals, assign_append hequals]

/-- An assignment to a name that can be spelled goes to this name. -/
theorem assign_of_spellable (h : Spellable name) (text : String) :
    cells.assign (name ++ "=" ++ text) = cells.assignText name text := by
  rw [append_equals, assign_append h.no_equals, trimBlanks_eq_self_iff.mpr h.trimmed,
    String.ofList_toList, String.ofList_toList]

/-- The word for nil is read as nil for every kind. -/
theorem read?_nil (kind : CellKind) : kind.read? (trimBlanks "nil".toList) = some none := by
  cases kind <;> decide

/-- Assigning a cell by its name and by a text that spells this agree for all texts exactly if the
name has no equals sign and no white space at its ends. -/
theorem assign_agrees_iff (cells : Cells) (name : String) :
    (∀ text, cells.assign (name ++ "=" ++ text) = cells.assignText name text) ↔
      Spellable name := by
  constructor
  · intro hall
    obtain ⟨target, rest, hspellable, htarget⟩ := exists_target name "nil"
    have hagree := (htarget cells).symm.trans (hall "nil")
    by_cases hsame : target = name
    · rwa [hsame] at hspellable
    · cases hcell : cells.get? name with
      | none =>
        -- Only the one of this name can report that there is no cell of this name.
        rw [assignText_of_get?_none hcell] at hagree
        exact absurd (name_eq_of_unknown hagree) hsame
      | some cell =>
        rw [assignText_of_read? hcell (read?_nil _)] at hagree
        exact absurd hagree (assignText_ne hsame (assignText_of_read? hcell (read?_nil _)))
  · intro hspellable text
    exact assign_of_spellable hspellable text

/-- A cell with an equals sign in its name cannot be assigned by a text that spells its name. -/
theorem equals_sign_splits_name :
    let cells := Cells.empty.declare "a=b" .bool
    cells.names = ["a=b"] ∧ cells.assign ("a=b" ++ "=" ++ "1") = .error (.unknown "a") ∧
      cells.assignText "a=b" "1" = .ok (cells.put "a=b" (some (.bool true))) := by
  decide +kernel

end Cells

end DataLink
