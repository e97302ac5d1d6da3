import DataLink.Text.Emoji
import DataLink.Text.Ligature

/-!
# Display width

How many columns a text takes on a terminal. Most characters take the columns that they
take alone. Emoji sequences and ligatures take fewer together, and a selector changes the
form of the character before it. The text is measured from its end, since what follows a
character decides about it.
-/

namespace DataLink

/-- What a selector asks of the character before it. -/
inductive Selector where
  /-- To be displayed as emoji. -/
  | emoji
  /-- To be displayed as text. -/
  | text
  /-- To be displayed in the middle of a wide cell, if it is a quotation mark. -/
  | wideQuote
  deriving DecidableEq, Repr

/-- The selector that a character is. -/
def Selector.ofChar? (c : Char) : Option Selector :=
  if c = '\ufe0f' then some .emoji
  else if c = '\ufe0e' then some .text
  else if c = '\ufe01' then some .wideQuote
  else none

/-- Quotation marks with a wide form. -/
def quotationMarks : CharSet := ⟨[0x2018, 0x201a, 0x201c, 0x201e]⟩

/-- What a text begins with, as far as the columns of a character before it depend on it. -/
inductive Opening where
  | other
  /-- The end of a ligature. -/
  | ligature (l : Ligature)
  /-- The end of an emoji sequence. -/
  | emoji (t : EmojiTail)
  deriving DecidableEq, Repr

namespace Opening

/-- The opening that a character makes by itself. -/
def ofChar (c : Char) : Opening :=
  match Ligature.ofChar? c, EmojiTail.ofChar? c with
  | some l, _ => .ligature l
  | none, some t => .emoji t
  | none, none => .other

/-- A character that belongs to the ligature or sequence after it: the columns it adds, and
the opening of the longer text. -/
def before? (o : Opening) (c : Char) : Option (Int × Opening) :=
  match o with
  | .other => none
  | .ligature l =>
    (l.before? c).map fun (columns, rest) => (columns, (rest.map .ligature).getD .other)
  | .emoji t => (t.before? c).map fun (columns, rest) => (columns, .emoji rest)

/-- Whether a character displayed as emoji completes a joined emoji. -/
def isOpenEmoji : Opening → Bool
  | .emoji t => t.isOpen
  | _ => false

/-- Whether characters that only say how to draw it may stand before the opening. -/
def isTransparent : Opening → Bool
  | .ligature l => l.isTransparent
  | _ => false

end Opening

/-- What follows a character: selectors that no character before them has obeyed, the nearest
first, and the opening after them. -/
structure Sequel where
  selectors : List Selector
  opening : Opening
  deriving DecidableEq, Repr

namespace Sequel

/-- The end of the text. -/
def ending : Sequel := ⟨[], .other⟩

/-- The columns of a character that obeys a selector before an opening. -/
def obeyed? (o : Opening) (c : Char) : Selector → Option (Int × Sequel)
  | .emoji =>
    if emojiStyled.contains c then
      some (if o.isOpenEmoji then 0 else 2, ⟨[], .emoji .emoji⟩)
    else none
  | .text => if isNarrowAsText c then some (1, .ending) else none
  | .wideQuote => if quotationMarks.contains c then some (2, .ending) else none

/-- The columns of a character that obeys one of the selectors after it. -/
def selected? (s : Sequel) (c : Char) : Option (Int × Sequel) :=
  s.selectors.findSome? (obeyed? s.opening c)

/-- What is left once a character obeys no selector. Before a ligature the selectors wait for
another character, save one for emoji, which is for its neighbour alone. -/
def unheeded (s : Sequel) : Sequel :=
  if s.selectors = [] then s
  else if s.opening.isTransparent then
    { s with selectors := s.selectors.filter (· ≠ .emoji) }
  else .ending

/-- One more selector. It does not part a ligature, and one for emoji stands before the joiner
of its emoji. -/
def select (s : Sequel) (selector : Selector) : Sequel :=
  if s.opening.isTransparent then { s with selectors := selector :: s.selectors }
  else if selector = .emoji && s.opening.isOpenEmoji then { s with selectors := [selector] }
  else ⟨[selector], .other⟩

/-- The columns that a character adds to the text after it, and what follows a character
before it. -/
def before (s : Sequel) (c : Char) : Int × Sequel :=
  match s.selected? c, Selector.ofChar? c with
  | some result, _ => result
  | none, some selector => (0, s.unheeded.select selector)
  | none, none =>
    match s.unheeded.opening.before? c with
    | some (columns, opening) => (columns, ⟨[], opening⟩)
    | none => (charColumns c, ⟨[], .ofChar c⟩)

end Sequel

/-- The columns of a text, and what follows a character before it. -/
def measure (text : List Char) : Int × Sequel :=
  text.foldr
    (fun c (total, sequel) =>
      let (columns, sequel) := sequel.before c
      (total + columns, sequel))
    (0, .ending)

/-- The columns of a list of characters. -/
def charsWidth (text : List Char) : Nat := (measure text).1.toNat

/-- The columns of a text. -/
def displayWidth (text : String) : Nat := charsWidth text.toList

end DataLink
