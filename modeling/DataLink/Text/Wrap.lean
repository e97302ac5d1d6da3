import DataLink.Text.Grapheme
import DataLink.Text.Width

/-!
# Wrapping

A line that is wider than its column is wrapped at spaces. A line takes as many words as fit;
one with room for two more columns or fewer is left as it is. Only a word that is wider than
the column is cut, between graphemes.
-/

namespace DataLink

/-- A line that is being filled: its words, the last one first, and its columns. -/
structure FilledLine where
  words : List (List Char)
  columns : Nat

namespace FilledLine

/-- A line without words. -/
def empty : FilledLine := ⟨[], 0⟩

/-- Whether a line has no words. -/
def isEmpty (l : FilledLine) : Bool := l.words.isEmpty

/-- The columns before the next word: those of the line and of the space after it. -/
def used (l : FilledLine) : Nat := if l.isEmpty then 0 else l.columns + 1

/-- A line with one more word. Nothing added to an empty line leaves it empty. -/
def add (l : FilledLine) (word : List Char) : FilledLine :=
  if l.isEmpty && word.isEmpty then l else ⟨word :: l.words, l.used + charsWidth word⟩

/-- Whether so little room is left that the line is done. -/
def isFull (l : FilledLine) (width : Nat) : Bool := width - 2 < l.columns

/-- The text of a line. -/
def text (l : FilledLine) : String := " ".intercalate (l.words.reverse.map String.ofList)

end FilledLine

/-- How many characters of some graphemes fit into so many columns, after so many others. -/
def fitting (room count : Nat) : List (List Char) → Nat
  | [] => count
  | g :: rest =>
    if charsWidth g ≤ room then fitting (room - charsWidth g) (count + g.length) rest else count

/-- How many characters of a word are put on a line. An empty line takes at least one. -/
def cutLength (width : Nat) (l : FilledLine) (word : List Char) : Nat :=
  let count := fitting (width - l.used) 0 (graphemes word)
  if l.isEmpty then max 1 count else count

/-- A bound for the steps that words take: every step takes a character or a word away, or
closes a line. -/
def wrapSteps (words : List (List Char)) (l : FilledLine) : Nat :=
  words.foldr (fun word steps => 2 * (word.length + 1) + steps) (if l.isEmpty then 0 else 1)

/-- A word takes two steps for each of its characters and two more. -/
theorem wrapSteps_cons (word : List Char) (rest : List (List Char)) (l : FilledLine) :
    wrapSteps (word :: rest) l = 2 * (word.length + 1) + wrapSteps rest l := rfl

/-- What was begun counts one step at most. -/
theorem wrapSteps_le_succ (words : List (List Char)) (l next : FilledLine) :
    wrapSteps words next ≤ wrapSteps words l + 1 := by
  induction words with
  | nil => simp only [wrapSteps, List.foldr_nil]; split <;> omega
  | cons word rest ih => rw [wrapSteps_cons, wrapSteps_cons]; omega

/-- Putting a word on a line leaves fewer steps. -/
theorem wrapSteps_tail_lt (word : List Char) (rest : List (List Char)) (l next : FilledLine) :
    wrapSteps rest next < wrapSteps (word :: rest) l := by
  have h := wrapSteps_le_succ rest l next
  rw [wrapSteps_cons]
  omega

/-- Closing a line that was begun leaves fewer steps. -/
theorem wrapSteps_close_lt (words : List (List Char)) {l : FilledLine} (h : l.isEmpty = false) :
    wrapSteps words .empty < wrapSteps words l := by
  have hempty : FilledLine.empty.isEmpty = true := rfl
  induction words with
  | nil => simp [wrapSteps, h, hempty]
  | cons word rest ih => rw [wrapSteps_cons, wrapSteps_cons]; omega

/-- Cutting a word leaves fewer steps. -/
theorem wrapSteps_cut_lt {width : Nat} {word : List Char} (rest : List (List Char))
    (l : FilledLine) (h : width < charsWidth word) :
    wrapSteps (word.drop (cutLength width l word) :: rest) .empty <
      wrapSteps (word :: rest) l := by
  have hlength : 0 < word.length := by
    cases word with
    | nil => exact absurd h (Nat.not_lt_zero _)
    | cons c cs => exact Nat.succ_pos _
  rw [wrapSteps_cons, wrapSteps_cons, List.length_drop]
  by_cases hl : l.isEmpty = true
  · have hcut : 1 ≤ cutLength width l word := by
      simp only [cutLength, hl, if_true]
      exact Nat.le_max_left _ _
    have hrest := wrapSteps_le_succ rest l .empty
    omega
  · have hrest := wrapSteps_close_lt rest (Bool.eq_false_iff.mpr hl)
    omega

/-- The lines that words fill, the first of which is begun. -/
def fillLines (width : Nat) (words : List (List Char)) (l : FilledLine) : List String :=
  match words with
  | [] => if l.isEmpty then [] else [l.text]
  | word :: rest =>
    if l.used + charsWidth word ≤ width then
      if (l.add word).isFull width then (l.add word).text :: fillLines width rest .empty
      else fillLines width rest (l.add word)
    else if !l.isEmpty && width - l.used ≤ 2 then
      l.text :: fillLines width (word :: rest) .empty
    else if width < charsWidth word then
      let count := cutLength width l word
      (l.add (word.take count)).text :: fillLines width (word.drop count :: rest) .empty
    else if (FilledLine.empty.add word).isFull width then
      l.text :: (FilledLine.empty.add word).text :: fillLines width rest .empty
    else l.text :: fillLines width rest (FilledLine.empty.add word)
termination_by wrapSteps words l
decreasing_by
  · exact wrapSteps_tail_lt word rest l .empty
  · exact wrapSteps_tail_lt word rest l (l.add word)
  · next h =>
    simp only [Bool.and_eq_true, Bool.not_eq_true'] at h
    exact wrapSteps_close_lt (word :: rest) h.1
  · next h => exact wrapSteps_cut_lt rest l h
  · exact wrapSteps_tail_lt word rest l .empty
  · exact wrapSteps_tail_lt word rest l (FilledLine.empty.add word)

/-- The lines of a line in a column of some width. -/
def wrapLine (width : Nat) (line : String) : List String :=
  if displayWidth line ≤ width then [line]
  else fillLines width ((line.splitOn " ").map String.toList) .empty

end DataLink
