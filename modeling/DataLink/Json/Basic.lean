import DataLink.Bytes
import DataLink.Cells

/-!
# Documents

JSON values and their compact text. Numbers are 64-bit integers where they are written as
such and fit, and double precision otherwise.
-/

namespace DataLink

/-- A number of a document. -/
inductive JsonNumber where
  | natural (n : UInt64)
  | negative (n : Int64)
  | float (x : Binary64)
  deriving DecidableEq, Repr

/-- A JSON value. -/
inductive Json where
  | null
  | bool (b : Bool)
  | number (n : JsonNumber)
  | text (s : String)
  | array (items : List Json)
  | object (members : List (String × Json))

/-- A number as text. A float that is not finite has none. -/
def JsonNumber.text : JsonNumber → String
  | .natural n => toString n.toNat
  | .negative n => toString n.toInt
  | .float x => if x.isFinite then x.text .document else "null"

namespace Json

/-- The natural, if the value is one. -/
def natural? : Json → Option UInt64
  | .number (.natural n) => some n
  | _ => none

/-- The integer of 64 bits, if the value is one. -/
def integer? : Json → Option Int64
  | .number (.natural n) =>
    if (n.toNat : Int) ≤ Int64.maxValue.toInt then some (Int64.ofInt n.toNat) else none
  | .number (.negative n) => some n
  | _ => none

/-- The boolean, if the value is one. -/
def bool? : Json → Option Bool
  | .bool b => some b
  | _ => none

/-- A character inside a JSON string. -/
def escape (c : Char) : List Char :=
  if c = doubleQuote ∨ c = '\\' then ['\\', c]
  else if c = '\x08' then ['\\', 'b']
  else if c = '\x0c' then ['\\', 'f']
  else if c = '\n' then ['\\', 'n']
  else if c = '\r' then ['\\', 'r']
  else if c = '\t' then ['\\', 't']
  else if c < ' ' then ['\\', 'u', '0', '0'] ++ Bytes.digitPair (UInt8.ofNat c.toNat)
  else [c]

/-- A text as a JSON string. -/
def quote (text : String) : String :=
  String.ofList (doubleQuote :: text.toList.flatMap escape ++ [doubleQuote])

mutual

/-- The compact text of a value. -/
def render : Json → String
  | .null => "null"
  | .bool b => if b then "true" else "false"
  | .number n => n.text
  | .text s => quote s
  | .array items => "[" ++ ",".intercalate (renderItems items) ++ "]"
  | .object members => "\x7b" ++ ",".intercalate (renderMembers members) ++ "\x7d"

/-- The texts of the items of an array. -/
def renderItems : List Json → List String
  | [] => []
  | item :: rest => item.render :: renderItems rest

/-- The texts of the members of an object. -/
def renderMembers : List (String × Json) → List String
  | [] => []
  | (name, value) :: rest => (quote name ++ ":" ++ value.render) :: renderMembers rest

end

/-- A natural below `2 ^ 64` as a value. -/
def ofNat (n : Nat) : Json := .number (.natural (UInt64.ofNat n))

/-- A float as a value; null unless it is finite. -/
def ofFloat (x : Binary64) : Json := if x.isFinite then .number (.float x) else .null

end Json

/-- A cell's value as a document. -/
def Value.json : Value → Json
  | .bool b => .bool b
  | .signed n =>
    .number (if 0 ≤ n.toInt then .natural (UInt64.ofNat n.toInt.toNat) else .negative n)
  | .unsigned n => .number (.natural n)
  | .float x => .ofFloat x

/-- A cell as a document, null without a value. -/
def Cell.json (c : Cell) : Json := (c.value?.map Value.json).getD .null

/-- All cells as a document, by name. -/
def Cells.json (cells : Cells) : Json := .object (cells.entries.map fun (name, c) => (name, c.json))

end DataLink
