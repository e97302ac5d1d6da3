import DataLink.Text.Ignorable
import DataLink.Text.Marks
import DataLink.Text.Wide

/-!
# Columns of a character

How many columns a character takes on a terminal when it stands alone.
-/

namespace DataLink

/-- Characters drawn over a neighbour that are no marks: vowels and finals of decomposed
syllables, signs that enclose digits, and consonants placed above the letter after them. -/
def overlaid : CharSet := ⟨[
  0x605, 0x606, 0x70f, 0x710, 0x890, 0x892, 0x8e2, 0x8e3, 0xd4e, 0xd4f, 0x1160, 0x1200, 0xa8fa,
  0xa8fb, 0xd7b0, 0xd7c7, 0xd7cb, 0xd7fc, 0x111c2, 0x111c4, 0x113d1, 0x113d2, 0x1193f, 0x11940,
  0x11941, 0x11942, 0x11a84, 0x11a8a, 0x11d46, 0x11d47, 0x11f02, 0x11f03]⟩

/-- The joiner, which asks for its neighbours to be drawn as one. -/
def zeroWidthJoiner : Char := '\u200d'

/-- The filler of a missing initial, which keeps its place in the syllable. -/
def initialFiller : Char := '\u115f'

/-- The joiner of consonants, which is drawn by itself where it joins none. -/
def consonantJoiner : Char := '\u2d7f'

/-- Whether a character takes no column. -/
def isColumnless (c : Char) : Bool :=
  (marks.contains c || ignorable.contains c || overlaid.contains c) &&
    !(c = initialFiller || c = consonantJoiner)

/-- The columns of a letter that is drawn as a row of others. -/
def rowColumns? (c : Char) : Option Nat :=
  if c = '\u17a4' then some 2 else if c = '\u17d8' then some 3 else none

/-- The columns of one character. -/
def charColumns (c : Char) : Nat :=
  match rowColumns? c with
  | some columns => columns
  | none => if isColumnless c then 0 else if wide.contains c then 2 else 1

end DataLink
