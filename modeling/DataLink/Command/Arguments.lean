/-!
# Command-line arguments

Long options start with two dashes and take their value from the same argument, after an
equals sign, or from the next one. A value that starts with a dash needs the equals sign.
Short options are a dash and a letter, and what follows the letter is attached to it. Two
dashes alone end the options.
-/

namespace DataLink

namespace Command

/-- An option of a command, and how its value is stored in the command's draft. -/
structure OptionSpec (σ : Type) where
  /-- The name with its dashes. -/
  name : String
  /-- Whether the option may occur more than once. -/
  isRepeatable : Bool
  /-- Whether the option takes a value. -/
  takesValue : Bool
  /-- Whether nothing is read after the option. -/
  isFinal : Bool
  /-- Stores a value, if it is valid. -/
  store : σ → String → Option σ

/-- Whether an argument is read as an option wherever options are allowed. -/
def isOption (argument : String) : Bool :=
  match argument.toList with
  | '-' :: _ :: _ => true
  | _ => false

/-- Whether an argument is read as a short option, and not as a long one. -/
def isShort (argument : String) : Bool :=
  match argument.toList with
  | '-' :: letter :: _ => letter ≠ '-'
  | _ => false

/-- The name in an argument, and what is attached to it: the value of a long option after
its first equals sign, and whatever follows the letter of a short one. -/
def splitAttached (argument : String) : String × Option String :=
  let characters := argument.toList
  if isShort argument then
    match characters.drop 2 with
    | [] => (argument, none)
    | attached => (String.ofList (characters.take 2), some (String.ofList attached))
  else
    let name := characters.takeWhile (· ≠ '=')
    match characters.dropWhile (· ≠ '=') with
    | [] => (argument, none)
    | _ :: value => (String.ofList name, some (String.ofList value))

/-- What has been read of a command's arguments. -/
structure Progress (σ : Type) where
  draft : σ
  /-- Names of the options seen. -/
  seen : List String

variable {σ : Type}

/-- Reads the option at the front of the arguments. Answers the arguments to read next.
What is attached to a short option without a value would be more options, of which a final
option leaves none to be read. -/
def takeOption (specs : List (OptionSpec σ)) (p : Progress σ) (argument : String)
    (rest : List String) : Option (Progress σ × List String) :=
  let (name, attached) := splitAttached argument
  match specs.find? fun s => s.name = name with
  | none => none
  | some spec =>
    if p.seen.contains name && !spec.isRepeatable then none
    else
      let store := fun (value : String) (rest : List String) =>
        (spec.store p.draft value).map fun draft =>
          (⟨draft, name :: p.seen⟩, if spec.isFinal then [] else rest)
      match spec.takesValue, attached, rest with
      | true, some value, _ => store value rest
      | true, none, value :: rest => if isOption value then none else store value rest
      | true, none, [] => none
      | false, none, _ => store "" rest
      | false, some _, _ =>
        if spec.isFinal && isShort argument then store "" rest else none

/-- Reads options up to the first argument that is none. Answers the arguments from there.
The first argument bounds the steps. -/
def leadingOptions (specs : List (OptionSpec σ)) :
    Nat → Progress σ → List String → Option (σ × List String)
  | 0, p, arguments => some (p.draft, arguments)
  | _ + 1, p, [] => some (p.draft, [])
  | steps + 1, p, argument :: rest =>
    if isOption argument then
      match takeOption specs p argument rest with
      | some (p, rest) => leadingOptions specs steps p rest
      | none => none
    else some (p.draft, argument :: rest)

/-- Reads options and words in any order; after two dashes there are only words. Answers
the words, of which at most so many are allowed. The first argument bounds the steps. -/
def optionsAndWords (specs : List (OptionSpec σ)) (allowed : Nat) :
    Nat → Progress σ → List String → List String → Option (σ × List String)
  | 0, _, _, _ => none
  | _ + 1, p, words, [] => some (p.draft, words)
  | steps + 1, p, words, argument :: rest =>
    if argument = "--" then
      let words := words ++ rest
      if words.length ≤ allowed then some (p.draft, words) else none
    else if isOption argument then
      match takeOption specs p argument rest with
      | some (p, rest) => optionsAndWords specs allowed steps p words rest
      | none => none
    else if words.length < allowed then
      optionsAndWords specs allowed steps p (words ++ [argument]) rest
    else none

end Command

end DataLink
