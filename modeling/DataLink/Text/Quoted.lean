import DataLink.Text.Hidden
import DataLink.Text.Ignorable
import DataLink.Text.Marks

/-!
# Quoted text

Texts and single characters are quoted in messages. Quotes of the same kind, backslashes
and the common controls are escaped by a backslash. Characters without a glyph, extending
marks and characters that are not displayed are shown by their code points.
-/

namespace DataLink

/-- The quote around texts. -/
def doubleQuote : Char := '\x22'

/-- The quote around single characters. -/
def singleQuote : Char := '\x27'

/-- A code point in hexadecimal, in braces. -/
def codePointText (c : Char) : List Char :=
  ['\\', 'u', '\x7b'] ++ Nat.toDigits 16 c.toNat ++ ['\x7d']

/-- Whether a character could not be seen by itself. -/
def isUnseen (c : Char) : Bool :=
  marks.contains c || hidden.contains c || ignorable.contains c

/-- One character inside a quotation that is closed by `quote`. -/
def escapeChar (quote c : Char) : List Char :=
  if c = quote ∨ c = '\\' then ['\\', c]
  else if c = '\n' then ['\\', 'n']
  else if c = '\r' then ['\\', 'r']
  else if c = '\t' then ['\\', 't']
  else if c = '\x00' then ['\\', '0']
  else if isUnseen c then codePointText c
  else [c]

/-- A text in double quotes. -/
def quoteText (text : String) : String :=
  String.ofList (doubleQuote :: text.toList.flatMap (escapeChar doubleQuote) ++ [doubleQuote])

/-- A character in single quotes. -/
def quoteChar (c : Char) : String :=
  String.ofList (singleQuote :: escapeChar singleQuote c ++ [singleQuote])

end DataLink
