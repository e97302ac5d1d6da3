import DataLink.Json.Token

/-!
# Reading documents

A reader takes tokens from the front of a list and yields a value of the type that is
expected there. The first fault from left to right decides. Records are written as
objects or as arrays of their members in order; alternatives are written as an object
with one member that names the alternative.
-/

namespace DataLink

/-- A reader of tokens. -/
abbrev TokenReader := StateT (List Token) (Except JsonFault)

namespace TokenReader

variable {α σ : Type}

/-- The fault of the tokens where a value of another type is expected. -/
def mismatch : List Token → JsonFault
  | [] => .truncated
  | .broken _ fault :: _ => fault
  | .closeBrace :: _ => .malformed
  | .closeBracket :: _ => .malformed
  | .comma :: _ => .malformed
  | .colon :: _ => .malformed
  | _ :: _ => .unexpected

/-- The fault of the tokens where only certain marks may stand. -/
def misplaced : List Token → JsonFault
  | [] => .truncated
  | _ :: _ => .malformed

/-- The fault of the tokens where only certain marks or a string may stand. -/
def misplacedText : List Token → JsonFault
  | .broken .text fault :: _ => fault
  | tokens => misplaced tokens

/-- Takes one mark. -/
def mark (token : Token) : TokenReader Unit := fun tokens =>
  match tokens with
  | first :: rest => if first = token then .ok ((), rest) else .error .malformed
  | [] => .error .truncated

/-- A boolean. -/
def bool : TokenReader Bool := fun tokens =>
  match tokens with
  | .bool b :: rest => .ok (b, rest)
  | _ => .error (mismatch tokens)

/-- A string. -/
def text : TokenReader String := fun tokens =>
  match tokens with
  | .text s :: rest => .ok (s, rest)
  | _ => .error (mismatch tokens)

/-- Null. -/
def null : TokenReader Unit := fun tokens =>
  match tokens with
  | .null :: rest => .ok ((), rest)
  | _ => .error (mismatch tokens)

/-- A natural below a limit. -/
def natural (limit : Nat) : TokenReader Nat := fun tokens =>
  match tokens with
  | .number (.natural n) :: rest =>
    if n.toNat < limit then .ok (n.toNat, rest) else .error .unexpected
  | _ => .error (mismatch tokens)

/-- A natural of 64 bits. -/
def natural64 : TokenReader UInt64 := do return UInt64.ofNat (← natural UInt64.size)

/-- A number in double precision. -/
def float : TokenReader Binary64 := fun tokens =>
  match tokens with
  | .number (.natural n) :: rest => .ok (.ofNat n.toNat, rest)
  | .number (.negative n) :: rest => .ok (.ofInt n.toInt, rest)
  | .number (.float x) :: rest => .ok (x, rest)
  | _ => .error (mismatch tokens)

/-- Null for nothing, or a value. -/
def optional (read : TokenReader α) : TokenReader (Option α) := fun tokens =>
  match tokens with
  | .null :: rest => .ok (none, rest)
  | _ => (read tokens).map fun (a, rest) => (some a, rest)

/-- Enters an array, an object or an alternative, if nesting allows it. The body is read
one level deeper. -/
def enter (depth : Nat) (body : Nat → TokenReader α) : TokenReader α :=
  match depth with
  | 0 => fun _ => .error .malformed
  | deeper + 1 => body deeper

/-- Whether an array goes on with an item. Items after the first follow a comma. -/
def hasItem (isFirst : Bool) : TokenReader Bool := fun tokens =>
  match tokens with
  | .closeBracket :: _ => .ok (false, tokens)
  | .comma :: rest =>
    if isFirst then .ok (true, tokens)
    else
      match rest with
      | .closeBracket :: _ => .error .malformed
      | [] => .error .truncated
      | _ => .ok (true, rest)
  | [] => .error .truncated
  | _ => if isFirst then .ok (true, tokens) else .error .malformed

/-- Items of an array up to its end. The first argument bounds their number, and the last
holds the items so far, last one first. -/
def itemSteps (read : TokenReader α) : Nat → Bool → List α → TokenReader (List α)
  | 0, _, _ => fun _ => .error .malformed
  | steps + 1, isFirst, items => do
    if ← hasItem isFirst then
      let item ← read
      itemSteps read steps false (item :: items)
    else
      mark .closeBracket
      return items.reverse

/-- An array. The reader of items knows how deep it is. -/
def array (depth : Nat) (read : Nat → TokenReader α) : TokenReader (List α) := fun tokens =>
  match tokens with
  | .openBracket :: rest =>
    enter depth (fun deeper => itemSteps (read deeper) (rest.length + 1) true []) rest
  | _ => .error (mismatch tokens)

/-- The name of a member. -/
def memberName : TokenReader String := fun tokens =>
  match tokens with
  | .text name :: rest => .ok (name, rest)
  | _ => .error (misplacedText tokens)

/-- The name of the next member of an object; nothing at the end of the object. -/
def key? (isFirst : Bool) : TokenReader (Option String) := fun tokens =>
  match tokens with
  | .closeBrace :: rest => .ok (none, rest)
  | _ =>
    let start : Except JsonFault (List Token) :=
      match isFirst, tokens with
      | true, _ => .ok tokens
      | false, .comma :: rest => .ok rest
      | false, _ => .error (misplaced tokens)
    match start with
    | .error fault => .error fault
    | .ok rest => (memberName rest).map fun (name, rest) => (some name, rest)

/-- Members of an object up to its end, where every name is allowed. The last argument
holds the members so far, last one first. -/
def memberSteps (read : TokenReader α) :
    Nat → Bool → List (String × α) → TokenReader (List (String × α))
  | 0, _, _ => fun _ => .error .malformed
  | steps + 1, isFirst, members => do
    match ← key? isFirst with
    | none => return members.reverse
    | some name =>
      mark .colon
      let value ← read
      memberSteps read steps false ((name, value) :: members)

/-- An object whose names are data. -/
def map (depth : Nat) (read : Nat → TokenReader α) : TokenReader (List (String × α)) :=
  fun tokens =>
    match tokens with
    | .openBrace :: rest =>
      enter depth (fun deeper => memberSteps (read deeper) (rest.length + 1) true []) rest
    | _ => .error (mismatch tokens)

/-- A member of a record: its name, whether it may be absent, and how it is read into the
record under construction. -/
structure Member (σ : Type) where
  name : String
  isOptional : Bool
  read : Nat → σ → TokenReader σ

/-- A member that is read into its place. -/
def Member.of (name : String) (isOptional : Bool) (read : Nat → TokenReader α)
    (store : σ → α → σ) : Member σ :=
  ⟨name, isOptional, fun depth draft => do return store draft (← read depth)⟩

/-- Members of a record that is written as an object. Unknown and repeated names are
refused when they are met, absent members at the end. -/
def recordSteps (members : List (Member σ)) (depth : Nat) :
    Nat → Bool → List String → σ → TokenReader σ
  | 0, _, _, _ => fun _ => .error .malformed
  | steps + 1, isFirst, seen, draft => do
    match ← key? isFirst with
    | none =>
      if members.all fun m => m.isOptional || seen.contains m.name then return draft
      else throw .unexpected
    | some name =>
      match members.find? fun m => m.name = name with
      | none => throw .unexpected
      | some member =>
        if seen.contains name then throw .unexpected
        mark .colon
        let draft ← member.read depth draft
        recordSteps members depth steps false (name :: seen) draft

/-- Members of a record that is written as an array. Optional members may be missing. -/
def tupleSteps (depth : Nat) : List (Member σ) → Bool → σ → TokenReader σ
  | [], _, draft => do
    mark .closeBracket
    return draft
  | member :: rest, isFirst, draft => do
    if ← hasItem isFirst then
      let draft ← member.read depth draft
      tupleSteps depth rest false draft
    else if member.isOptional then tupleSteps depth rest isFirst draft
    else throw .unexpected

/-- A record, as an object or as an array. -/
def record (members : List (Member σ)) (draft : σ) (depth : Nat) : TokenReader σ := fun tokens =>
  match tokens with
  | .openBrace :: rest =>
    enter depth (fun deeper => recordSteps members deeper (rest.length + 1) true [] draft) rest
  | .openBracket :: rest => enter depth (fun deeper => tupleSteps deeper members true draft) rest
  | _ => .error (mismatch tokens)

/-- An alternative, written as its name alone or as an object with one member. -/
def alternative (depth : Nat) (plain : String → Option α)
    (wrapped : String → Option (Nat → TokenReader α)) : TokenReader α := fun tokens =>
  match tokens with
  | .text name :: rest =>
    match plain name with
    | some a => .ok (a, rest)
    | none => .error .unexpected
  | .openBrace :: rest =>
    enter depth (fun deeper => do
      let name ← memberName
      match wrapped name with
      | none => throw .unexpected
      | some read =>
        mark .colon
        let a ← read deeper
        mark .closeBrace
        return a) rest
  | _ => .error (misplacedText tokens)

/-- Puts a member in the order of names; the last of a name wins. -/
def insertMember {α : Type} (name : String) (value : α) :
    List (String × α) → List (String × α)
  | [] => [(name, value)]
  | (other, found) :: rest =>
    if name < other then (name, value) :: (other, found) :: rest
    else if name = other then (name, value) :: rest
    else (other, found) :: insertMember name value rest

/-- Members in the order of their names; the last of a name wins. -/
def sortMembers {α : Type} (members : List (String × α)) : List (String × α) :=
  members.foldl (fun sorted (name, value) => insertMember name value sorted) []

/-- Any value. The first argument bounds nesting like `depth` does. -/
def json : Nat → Nat → TokenReader Json
  | 0, _ => fun tokens =>
    match tokens with
    | .openBracket :: _ => .error .malformed
    | .openBrace :: _ => .error .malformed
    | _ => scalar tokens
  | bound + 1, depth => fun tokens =>
    match tokens with
    | .openBracket :: _ => (array depth (json bound) tokens).map fun (a, rest) => (.array a, rest)
    | .openBrace :: _ =>
      (map depth (json bound) tokens).map fun (members, rest) =>
        (.object (sortMembers members), rest)
    | _ => scalar tokens
where
  /-- Any value that holds no others. -/
  scalar : TokenReader Json := fun tokens =>
    match tokens with
    | .null :: rest => .ok (.null, rest)
    | .bool b :: rest => .ok (.bool b, rest)
    | .number n :: rest => .ok (.number n, rest)
    | .text s :: rest => .ok (.text s, rest)
    | _ => .error (mismatch tokens)

/-- Levels of nesting that are allowed. -/
def maxDepth : Nat := 127

/-- Reads a whole text. Nothing may follow the value. -/
def run (read : Nat → TokenReader α) (text : String) : Except JsonFault α :=
  match read maxDepth (Token.ofText text) with
  | .error fault => .error fault
  | .ok (a, []) => .ok a
  | .ok (_, _ :: _) => .error .malformed

end TokenReader

end DataLink
