import DataLink.Number.Decimal
import DataLink.Number.Reader
import DataLink.Text.Blank

/-!
# Cells

A cell holds a value of one kind, or nothing. Its serial counts assignments, so a reader
can tell that a cell was written even if its value stayed the same.
-/

namespace DataLink

/-- What kind of value a cell holds. -/
inductive CellKind where
  | bool
  | signed
  | unsigned
  | float
  deriving DecidableEq, Repr

/-- The name of a kind. -/
def CellKind.name : CellKind → String
  | .bool => "bool"
  | .signed => "signed"
  | .unsigned => "unsigned"
  | .float => "float"

/-- All kinds. -/
def CellKind.all : List CellKind := [.bool, .signed, .unsigned, .float]

/-- The kind with a name. -/
def CellKind.ofName? (name : String) : Option CellKind := CellKind.all.find? (·.name = name)

/-- A value of some kind. -/
inductive Value where
  | bool (b : Bool)
  | signed (n : Int64)
  | unsigned (n : UInt64)
  | float (x : Binary64)
  deriving DecidableEq, Repr

namespace Value

/-- The kind of a value. -/
def kind : Value → CellKind
  | .bool _ => .bool
  | .signed _ => .signed
  | .unsigned _ => .unsigned
  | .float _ => .float

/-- A value as text. -/
def text : Value → String
  | .bool b => if b then "true" else "false"
  | .signed n => toString n.toInt
  | .unsigned n => toString n.toNat
  | .float x => x.text .plain

/-- The word for the absence of a value. -/
def nilText : String := "nil"

end Value

/-- Reads trimmed text as a value of this kind, or as nil. Booleans have three spellings
each; words are recognised in either letter case. Only finite numbers are read. -/
def CellKind.read? (kind : CellKind) (text : List Char) : Option (Option Value) :=
  let word := String.ofList (text.map Char.toLower)
  if word = Value.nilText then some none
  else
    match kind with
    | .bool =>
      if word ∈ ["true", "1", "on"] then some (some (.bool true))
      else if word ∈ ["false", "0", "off"] then some (some (.bool false))
      else none
    | .signed => (readSigned? text).map fun n => some (.signed n)
    | .unsigned => (readUnsigned? text).map fun n => some (.unsigned n)
    | .float =>
      match readBinary64? text with
      | some x => if x.isFinite then some (some (.float x)) else none
      | none => none

/-- The content of a cell of one kind. -/
structure Slot (α : Type) where
  value : Option α
  /-- Assignments so far, modulo `2 ^ 64`. -/
  serial : UInt64
  deriving DecidableEq, Repr

namespace Slot

variable {α : Type}

/-- Never assigned. -/
def empty : Slot α := ⟨none, 0⟩

/-- An assignment. -/
def put (s : Slot α) (value : Option α) : Slot α := ⟨value, s.serial + 1⟩

end Slot

/-- A cell of one of the four kinds. -/
inductive Cell where
  | bool (slot : Slot Bool)
  | signed (slot : Slot Int64)
  | unsigned (slot : Slot UInt64)
  | float (slot : Slot Binary64)
  deriving DecidableEq, Repr

namespace Cell

/-- A new cell without a value. -/
def empty : CellKind → Cell
  | .bool => .bool .empty
  | .signed => .signed .empty
  | .unsigned => .unsigned .empty
  | .float => .float .empty

/-- The kind of a cell. -/
def kind : Cell → CellKind
  | .bool _ => .bool
  | .signed _ => .signed
  | .unsigned _ => .unsigned
  | .float _ => .float

/-- Assignments so far. -/
def serial : Cell → UInt64
  | .bool s => s.serial
  | .signed s => s.serial
  | .unsigned s => s.serial
  | .float s => s.serial

/-- The value, if there is one. -/
def value? : Cell → Option Value
  | .bool s => s.value.map .bool
  | .signed s => s.value.map .signed
  | .unsigned s => s.value.map .unsigned
  | .float s => s.value.map .float

/-- Assigns a value, or nil. A value of another kind is refused. -/
def put : Cell → Option Value → Cell
  | .bool s, none => .bool (s.put none)
  | .bool s, some (.bool b) => .bool (s.put (some b))
  | .signed s, none => .signed (s.put none)
  | .signed s, some (.signed n) => .signed (s.put (some n))
  | .unsigned s, none => .unsigned (s.put none)
  | .unsigned s, some (.unsigned n) => .unsigned (s.put (some n))
  | .float s, none => .float (s.put none)
  | .float s, some (.float x) => .float (s.put (some x))
  | c, some _ => c

/-- The value as text. -/
def text (c : Cell) : String := (c.value?.map Value.text).getD Value.nilText

/-- A cell without a value has the kind that was asked for. -/
@[simp] theorem kind_empty (kind : CellKind) : (empty kind).kind = kind := by
  cases kind <;> rfl

/-- Assigning a cell never changes its kind. -/
@[simp] theorem kind_put (c : Cell) (v : Option Value) : (c.put v).kind = c.kind := by
  cases v with
  | none => cases c <;> rfl
  | some v => cases c <;> cases v <;> rfl

/-- A cell that nil is assigned to has no value. -/
@[simp] theorem value?_put_none (c : Cell) : (c.put none).value? = none := by
  cases c <;> rfl

/-- Assigning nil counts as an assignment. -/
@[simp] theorem serial_put_none (c : Cell) : (c.put none).serial = c.serial + 1 := by
  cases c <;> rfl

/-- A value that a cell holds is of the cell's kind. -/
theorem kind_of_value? {c : Cell} {v : Value} (h : c.value? = some v) : v.kind = c.kind := by
  cases c <;> simp only [value?, Option.map_eq_some_iff] at h <;> obtain ⟨_, _, rfl⟩ := h <;> rfl

/-- A value of the cell's kind is held once it is assigned. -/
theorem value?_put {c : Cell} {v : Value} (h : v.kind = c.kind) :
    (c.put (some v)).value? = some v := by
  cases c <;> cases v <;> cases h <;> rfl

/-- Assigning a value of the cell's kind is counted. -/
theorem serial_put {c : Cell} {v : Value} (h : v.kind = c.kind) :
    (c.put (some v)).serial = c.serial + 1 := by
  cases c <;> cases v <;> cases h <;> rfl

end Cell

end DataLink
