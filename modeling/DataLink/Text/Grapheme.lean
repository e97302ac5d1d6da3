import DataLink.Text.GraphemeClass

/-!
# Graphemes

A text is cut into graphemes, what a reader takes for one character each. It is read from its
beginning; the end of what was read decides whether the next character belongs to it.
-/

namespace DataLink

/-- What a text ends in, as far as the next character depends on it. -/
inductive GraphemeTail where
  /-- Nothing was read yet. -/
  | nothing
  /-- A character of a class. -/
  | plain (k : GraphemeClass)
  /-- The first letter of a flag. -/
  | halfFlag
  /-- A pictograph and its marks. -/
  | pictograph
  /-- A pictograph, its marks and a joiner. -/
  | joinedPictograph
  /-- A consonant and its marks. -/
  | consonant
  /-- A consonant and its marks, one of which links it to the next. -/
  | linkedConsonant
  deriving DecidableEq, Repr

namespace GraphemeTail

/-- Whether nothing may follow in the same grapheme, a line feed after a return apart. -/
def isClosed : GraphemeTail → Bool
  | .plain .carriageReturn => true
  | .plain .lineFeed => true
  | .plain .control => true
  | _ => false

/-- Whether parts of syllables stand in the order of a syllable. -/
def inSyllable : GraphemeClass → GraphemeClass → Bool
  | .leadingJamo, .leadingJamo => true
  | .leadingJamo, .vowelJamo => true
  | .leadingJamo, .openSyllable => true
  | .leadingJamo, .closedSyllable => true
  | .openSyllable, .vowelJamo => true
  | .openSyllable, .trailingJamo => true
  | .vowelJamo, .vowelJamo => true
  | .vowelJamo, .trailingJamo => true
  | .closedSyllable, .trailingJamo => true
  | .trailingJamo, .trailingJamo => true
  | _, _ => false

/-- Whether a letter or symbol belongs to the grapheme before it. -/
def joinsLetter : GraphemeTail → GraphemeClass → Bool
  | .plain .prepended, _ => true
  | .plain last, k => inSyllable last k
  | .halfFlag, .region => true
  | .joinedPictograph, .pictograph => true
  | .linkedConsonant, .consonant => true
  | _, _ => false

/-- Whether a character belongs to the grapheme before it. -/
def joins (t : GraphemeTail) (k : GraphemeClass) : Bool :=
  if t = .nothing then true
  else if t.isClosed then t = .plain .carriageReturn && k = .lineFeed
  else
    match k with
    | .carriageReturn => false
    | .lineFeed => false
    | .control => false
    | .mark => true
    | .linker => true
    | .nonJoiner => true
    | .joiner => true
    | .spacing => true
    | k => t.joinsLetter k

/-- The end of the text with one more mark. -/
def afterMark (t : GraphemeTail) (k : GraphemeClass) : GraphemeTail :=
  match t, k with
  | .pictograph, .joiner => .joinedPictograph
  | .pictograph, _ => .pictograph
  | .consonant, .linker => .linkedConsonant
  | .consonant, .mark => .consonant
  | .consonant, .joiner => .consonant
  | .linkedConsonant, .linker => .linkedConsonant
  | .linkedConsonant, .mark => .linkedConsonant
  | .linkedConsonant, .joiner => .linkedConsonant
  | _, k => .plain k

/-- The end of the text with one more character. -/
def after (t : GraphemeTail) (k : GraphemeClass) : GraphemeTail :=
  match k with
  | .region => if t = .halfFlag then .plain .region else .halfFlag
  | .pictograph => .pictograph
  | .consonant => .consonant
  | .mark => t.afterMark .mark
  | .linker => t.afterMark .linker
  | .nonJoiner => t.afterMark .nonJoiner
  | .joiner => t.afterMark .joiner
  | k => .plain k

end GraphemeTail

/-- A text that is being cut: the graphemes before the last one, the last one, both from their
end, and what it ends in. -/
structure GraphemeCut where
  done : List (List Char)
  last : List Char
  tail : GraphemeTail

/-- The cut with one more character. -/
def GraphemeCut.add (g : GraphemeCut) (c : Char) : GraphemeCut :=
  let k := GraphemeClass.ofChar c
  if g.tail.joins k then ⟨g.done, c :: g.last, g.tail.after k⟩
  else ⟨g.last.reverse :: g.done, [c], g.tail.after k⟩

/-- The graphemes of a text. -/
def graphemes (text : List Char) : List (List Char) :=
  let cut := text.foldl GraphemeCut.add ⟨[], [], .nothing⟩
  if cut.last = [] then [] else (cut.last.reverse :: cut.done).reverse

end DataLink
