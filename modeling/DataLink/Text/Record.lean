/-!
# Diagnostic text of structured values

Structures, variants and lists in one line, as they appear in diagnostics.
-/

namespace DataLink

namespace Record

/-- A structure with named fields. -/
def fields (name : String) (content : List (String × String)) : String :=
  name ++ " \x7b " ++ ", ".intercalate (content.map fun (field, text) => field ++ ": " ++ text) ++
    " \x7d"

/-- A variant that wraps one value. -/
def wrap (name content : String) : String := name ++ "(" ++ content ++ ")"

/-- A list. -/
def list (content : List String) : String := "[" ++ ", ".intercalate content ++ "]"

/-- An optional value. -/
def option (content : Option String) : String :=
  match content with
  | some text => wrap "Some" text
  | none => "None"

end Record

end DataLink
