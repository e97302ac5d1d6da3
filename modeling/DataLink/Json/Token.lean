import DataLink.Json.Scan

/-!
# Tokens of a document

A document is cut into tokens from left to right. A piece of text that is no token stands
at the end of the list as `broken`, so a reader meets faults in the order of the text.
-/

namespace DataLink

/-- What a broken piece of text started as. -/
inductive Lexeme where
  | word
  | number
  | text
  | stray
  deriving DecidableEq, Repr

/-- A token of a document. -/
inductive Token where
  | openBrace
  | closeBrace
  | openBracket
  | closeBracket
  | comma
  | colon
  | null
  | bool (b : Bool)
  | number (n : JsonNumber)
  | text (s : String)
  /-- A piece of text that breaks off; no token follows it. -/
  | broken (lexeme : Lexeme) (fault : JsonFault)
  deriving DecidableEq, Repr

namespace Token

/-- A scanned piece as a token, with the text after it; nothing follows a broken piece. -/
def ofScan {α : Type} (lexeme : Lexeme) (token : α → Token) : Scan α → Token × List Char
  | .ok (a, rest) => (token a, rest)
  | .error fault => (.broken lexeme fault, [])

/-- The first token of a text that starts with the character `c`. -/
def first (c : Char) (after : List Char) : Token × List Char :=
  if c = '\x7b' then (.openBrace, after)
  else if c = '\x7d' then (.closeBrace, after)
  else if c = '[' then (.openBracket, after)
  else if c = ']' then (.closeBracket, after)
  else if c = ',' then (.comma, after)
  else if c = ':' then (.colon, after)
  else if c = 'n' then ofScan .word (fun () => .null) (Scan.word ['u', 'l', 'l'] after)
  else if c = 't' then ofScan .word (fun () => .bool true) (Scan.word ['r', 'u', 'e'] after)
  else if c = 'f' then ofScan .word (fun () => .bool false) (Scan.word ['a', 'l', 's', 'e'] after)
  else if c = doubleQuote then ofScan .text Token.text (Scan.stringSteps (after.length + 1) [] after)
  else if c = '-' then ofScan .number Token.number (Scan.unsignedNumber true after)
  else if Reader.isDigit c then ofScan .number Token.number (Scan.unsignedNumber false (c :: after))
  else (.broken .stray .malformed, [])

/-- Blanks between tokens. -/
def isSpace (c : Char) : Bool := c = ' ' || c = '\n' || c = '\t' || c = '\r'

/-- Cuts a text into tokens. The first argument bounds the steps, and the second holds the
tokens so far, last one first. -/
def listSteps : Nat → List Token → List Char → List Token
  | 0, tokens, _ => tokens.reverse
  | _ + 1, tokens, [] => tokens.reverse
  | steps + 1, tokens, c :: after =>
    if isSpace c then listSteps steps tokens after
    else
      let (token, rest) := first c after
      listSteps steps (token :: tokens) rest

/-- The tokens of a text. -/
def ofText (text : String) : List Token :=
  let characters := text.toList
  listSteps characters.length [] characters

end Token

end DataLink
