import DataLink.Bytes
import DataLink.Text.Blank
import DataLink.Text.Quoted

/-!
# Hexadecimal text

Bytes are rendered as two lowercase digits each, joined by colons. Reading is more
lenient: it trims white space, skips one `0x`, and ignores colons, spaces and underscores
anywhere after that.
-/

namespace DataLink

/-- Why a text is not a string of bytes. -/
inductive HexFault where
  | oddLength
  /-- A byte of the text that is no digit, and where it stands among the digits. -/
  | badDigit (byte : UInt8) (position : Nat)
  deriving DecidableEq, Repr

/-- The fault in words. The byte is shown as the character with its number. -/
def HexFault.message : HexFault → String
  | .oddLength => "Odd number of digits"
  | .badDigit byte position =>
    "Invalid character " ++ quoteChar (Char.ofUInt8 byte) ++ " at position " ++ toString position

namespace Hex

/-- The value of a hexadecimal digit, given as a byte. -/
def digit? (b : UInt8) : Option UInt8 :=
  if 48 ≤ b ∧ b ≤ 57 then some (b - 48)
  else if 97 ≤ b ∧ b ≤ 102 then some (b - 87)
  else if 65 ≤ b ∧ b ≤ 70 then some (b - 55)
  else none

/-- Reads pairs of digits; `position` counts the bytes before them. -/
def pairs (position : Nat) : Bytes → Except HexFault Bytes
  | [] => .ok []
  | [_] => .error .oddLength
  | high :: low :: rest =>
    match digit? high, digit? low with
    | none, _ => .error (.badDigit high position)
    | some _, none => .error (.badDigit low (position + 1))
    | some h, some l => (pairs (position + 2) rest).map fun bytes => (16 * h + l) :: bytes

/-- Whether a character only separates digits. -/
def isSeparator (c : Char) : Bool := c = ':' || c = ' ' || c = '_'

/-- Skips one leading `0x`, in either case. -/
def skipMark : List Char → List Char
  | '0' :: 'x' :: rest => rest
  | '0' :: 'X' :: rest => rest
  | text => text

/-- What is left of a text to be read as digits, encoded in bytes. -/
def digits (text : List Char) : Bytes :=
  ((skipMark (trimBlanks text)).filter fun c => !isSeparator c).flatMap String.utf8EncodeChar

/-- Reads a text as bytes. An odd number of digits is found before a bad one. -/
def parse (text : String) : Except HexFault Bytes :=
  let found := digits text.toList
  if found.length % 2 = 1 then .error .oddLength else pairs 0 found

/-- Bytes as pairs of digits joined by colons. -/
def render (bytes : Bytes) : String :=
  ":".intercalate (bytes.map fun b => String.ofList (Bytes.digitPair b))

end Hex

end DataLink
