import DataLink.Cell
import DataLink.Text.Quoted

/-!
# Named cells

The cells that a link shares with its surroundings, in the order of their names. Cells
are found by name, and assigned from text such as `speed=12`.
-/

namespace DataLink

/-- Why a cell cannot be used as asked. -/
inductive CellFault where
  /-- There is no cell of this name. -/
  | unknown (name : String)
  /-- The cell holds values of another kind than those expected. -/
  | wrongKind (name : String) (actual : CellKind) (expected : List CellKind)
  /-- The text is no value of the cell's kind. -/
  | badValue (name : String) (kind : CellKind) (text : String)
  /-- An assignment without an equals sign. -/
  | badAssignment (text : String)
  deriving DecidableEq, Repr

/-- Alternatives in words, the last one after `or`. -/
def CellKind.alternatives : List CellKind → String
  | [] => ""
  | [kind] => kind.name
  | [first, second] => first.name ++ " or " ++ second.name
  | first :: rest => first.name ++ ", " ++ alternatives rest

/-- The fault in words. -/
def CellFault.message : CellFault → String
  | .unknown name => "unknown cell: " ++ name
  | .wrongKind name actual expected =>
    "cell " ++ name ++ " is " ++ actual.name ++ ", expected " ++ CellKind.alternatives expected
  | .badValue name kind text =>
    "invalid " ++ kind.name ++ " value for cell " ++ name ++ ": " ++ quoteText text
  | .badAssignment text => "invalid layout: expected name=value, got " ++ quoteText text

/-- A set of named cells. -/
structure Cells where
  /-- The cells with their names. -/
  entries : List (String × Cell)
  /-- Names increase, so no name occurs twice. -/
  ordered : (entries.map Prod.fst).Pairwise (· < ·)
  deriving DecidableEq

namespace Cells

/-- No cells. -/
def empty : Cells := ⟨[], .nil⟩

/-- No cells, where any will do. -/
instance : Inhabited Cells := ⟨empty⟩

/-- Puts a cell in its place; a cell of the same name is replaced. -/
def insertEntry (name : String) (cell : Cell) : List (String × Cell) → List (String × Cell)
  | [] => [(name, cell)]
  | (other, found) :: rest =>
    if name < other then (name, cell) :: (other, found) :: rest
    else if name = other then (name, cell) :: rest
    else (other, found) :: insertEntry name cell rest

/-- Putting a cell in its place brings no other name than its own. -/
theorem mem_names_insertEntry {name : String} {cell : Cell} {entries : List (String × Cell)}
    {x : String} (h : x ∈ (insertEntry name cell entries).map Prod.fst) :
    x = name ∨ x ∈ entries.map Prod.fst := by
  induction entries with
  | nil => simpa [insertEntry] using h
  | cons entry rest ih =>
    obtain ⟨other, found⟩ := entry
    by_cases hlt : name < other
    · simpa [insertEntry, hlt] using h
    · by_cases heq : name = other
      · simp only [insertEntry, if_neg hlt, if_pos heq, List.map_cons, List.mem_cons] at h ⊢
        exact h.imp_right .inr
      · simp only [insertEntry, if_neg hlt, if_neg heq, List.map_cons, List.mem_cons] at h ⊢
        rcases h with h | h
        · exact .inr (.inl h)
        · exact (ih h).imp_right .inr

/-- Putting a cell in its place keeps the names in order. -/
theorem ordered_insertEntry (name : String) (cell : Cell) {entries : List (String × Cell)}
    (h : (entries.map Prod.fst).Pairwise (· < ·)) :
    ((insertEntry name cell entries).map Prod.fst).Pairwise (· < ·) := by
  induction entries with
  | nil => simp [insertEntry]
  | cons entry rest ih =>
    obtain ⟨other, found⟩ := entry
    obtain ⟨hbefore, hrest⟩ := List.pairwise_cons.mp h
    by_cases hlt : name < other
    · simp only [insertEntry, if_pos hlt, List.map_cons]
      refine List.pairwise_cons.mpr ⟨fun x hx => ?_, h⟩
      rcases List.mem_cons.mp hx with rfl | hx
      · exact hlt
      · exact String.lt_trans hlt (hbefore x hx)
    · by_cases heq : name = other
      · subst heq
        simpa only [insertEntry, if_neg hlt, if_true, List.map_cons] using h
      · have hother : other < name :=
          String.not_le.mp fun hle => heq (String.le_antisymm hle (String.not_lt.mp hlt))
        simp only [insertEntry, if_neg hlt, if_neg heq, List.map_cons]
        refine List.pairwise_cons.mpr ⟨fun x hx => ?_, ih hrest⟩
        rcases mem_names_insertEntry hx with rfl | hx
        · exact hother
        · exact hbefore x hx

/-- Declares a cell without a value. A cell of the same name is replaced. -/
def declare (cells : Cells) (name : String) (kind : CellKind) : Cells :=
  ⟨insertEntry name (.empty kind) cells.entries, ordered_insertEntry name _ cells.ordered⟩

/-- The cell of a name. -/
def get? (cells : Cells) (name : String) : Option Cell :=
  (cells.entries.find? fun e => e.1 = name).map Prod.snd

/-- The value of the cell of a name, if the cell exists and has one. -/
def value? (cells : Cells) (name : String) : Option Value := (cells.get? name).bind Cell.value?

/-- Assigns to the cell of a name, if it exists. -/
def put (cells : Cells) (name : String) (value : Option Value) : Cells where
  entries := cells.entries.map fun e => if e.1 = name then (e.1, e.2.put value) else e
  ordered := by
    have h : (cells.entries.map fun e => if e.1 = name then (e.1, e.2.put value) else e).map
        Prod.fst = cells.entries.map Prod.fst := by
      rw [List.map_map]
      refine List.map_congr_left fun e _ => ?_
      simp only [Function.comp_apply]
      split <;> rfl
    exact h ▸ cells.ordered

/-- The names in increasing order. -/
def names (cells : Cells) : List String := cells.entries.map Prod.fst

/-- The cell of a name, which must exist. -/
def lookup (cells : Cells) (name : String) : Except CellFault Cell :=
  match cells.get? name with
  | some cell => .ok cell
  | none => .error (.unknown name)

/-- The cell of a name, which must exist and be of this kind. -/
def expect (cells : Cells) (name : String) (kind : CellKind) : Except CellFault Cell :=
  match cells.lookup name with
  | .error fault => .error fault
  | .ok cell =>
    if cell.kind = kind then .ok cell else .error (.wrongKind name cell.kind [kind])

/-- Assigns a cell from text, trimmed first. -/
def assignText (cells : Cells) (name text : String) : Except CellFault Cells :=
  match cells.lookup name with
  | .error fault => .error fault
  | .ok cell =>
    let trimmed := trimBlanks text.toList
    match cell.kind.read? trimmed with
    | some value => .ok (cells.put name value)
    | none => .error (.badValue name cell.kind (String.ofList trimmed))

/-- Splits at the first equals sign. -/
def splitAssignment : List Char → Option (List Char × List Char)
  | [] => none
  | c :: rest =>
    if c = '=' then some ([], rest)
    else (splitAssignment rest).map fun (name, text) => (c :: name, text)

/-- Assigns a cell from `name=value`. White space around the name is ignored. -/
def assign (cells : Cells) (assignment : String) : Except CellFault Cells :=
  match splitAssignment assignment.toList with
  | none => .error (.badAssignment assignment)
  | some (name, text) =>
    cells.assignText (String.ofList (trimBlanks name)) (String.ofList text)

end Cells

end DataLink
