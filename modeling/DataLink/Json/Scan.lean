import DataLink.Hex
import DataLink.Json.Basic
import DataLink.Number.Reader

/-!
# Scanning words, numbers and strings

The three lexemes of a document that have an inner structure. A scan yields a value and
the text after it, or the fault where the lexeme breaks off.

Numbers are read in one pass: a significand of up to 64 bits is rounded and then scaled
by a power of ten, so the last bit may differ from the nearest number.
-/

namespace DataLink

/-- What is wrong with a document. -/
inductive JsonFault where
  /-- The text is not well-formed. -/
  | malformed
  /-- The text ends too early. -/
  | truncated
  /-- The text is well-formed so far, but holds something else than expected. -/
  | unexpected
  deriving DecidableEq, Repr

/-- A value that was scanned, and the text after it. -/
abbrev Scan (α : Type) := Except JsonFault (α × List Char)

namespace Scan

/-- Reads the rest of a word. -/
def word : List Char → List Char → Scan Unit
  | [], text => .ok ((), text)
  | _ :: _, [] => .error .truncated
  | w :: expected, c :: text => if w = c then word expected text else .error .malformed

/-- A power of ten, rounded. -/
def tenPower (n : Nat) : Binary64 := .ofDecimal false 1 n

/-- The largest power of ten that is finite. -/
def maxTenPower : Nat := 308

/-- Multiplies by a power of ten, in steps that stay within finite powers. Each step
rounds. Exceeding the largest finite number is a fault. -/
def scaleSteps : Nat → Binary64 → Int → Except JsonFault Binary64
  | 0, x, _ => .ok x
  | steps + 1, x, exponent =>
    if exponent.natAbs ≤ maxTenPower then
      if 0 ≤ exponent then
        let scaled := x.mul (tenPower exponent.natAbs)
        if scaled.isInfinite then .error .malformed else .ok scaled
      else .ok (x.div (tenPower exponent.natAbs))
    else if x.code = 0 then .ok x
    else if 0 ≤ exponent then .error .malformed
    else scaleSteps steps (x.div (tenPower maxTenPower)) (exponent + maxTenPower)

/-- The float with a sign, a significand and a decimal exponent. The significand is
rounded first; four steps bring every number to zero. -/
def scale (negative : Bool) (significand : Nat) (exponent : Int) : Except JsonFault JsonNumber :=
  (scaleSteps 8 (.ofNat significand) exponent).map fun x =>
    .float (if negative then x.neg else x)

/-- Significands stay below this; digits beyond are dropped. -/
def significandLimit : Nat := UInt64.size

/-- Exponents as written stay below this. -/
def exponentLimit : Nat := Nat.pow 2 31

/-- Appends digits to a significand while it stays below a limit. Answers the significand,
how many digits went in, and the text from the first digit that did not. -/
def accumulate (limit : Nat) : Nat → Nat → List Char → Nat × Nat × List Char
  | value, count, [] => (value, count, [])
  | value, count, c :: text =>
    match Reader.digit? c with
    | none => (value, count, c :: text)
    | some d =>
      if 10 * value + d < limit then accumulate limit (10 * value + d) (count + 1) text
      else (value, count, c :: text)

/-- Reads an exponent after its mark. -/
def exponentPart (negative : Bool) (significand : Nat) (exponent : Int) (text : List Char) :
    Scan JsonNumber :=
  let (down, text) := Reader.splitSign text
  match text with
  | [] => .error .truncated
  | c :: _ =>
    if !Reader.isDigit c then .error .malformed
    else
      let (written, _, rest) := accumulate exponentLimit 0 0 text
      let after := rest.dropWhile Reader.isDigit
      if rest.length = after.length then
        let total := if down then exponent - written else exponent + written
        (scale negative significand total).map fun n => (n, rest)
      else if significand ≠ 0 ∧ !down then .error .malformed
      else .ok (.float (.ofCode negative 0), after)

/-- Reads what may follow the fraction. -/
def afterFraction (negative : Bool) (significand : Nat) (exponent : Int) (text : List Char) :
    Scan JsonNumber :=
  match text with
  | 'e' :: rest => exponentPart negative significand exponent rest
  | 'E' :: rest => exponentPart negative significand exponent rest
  | _ => (scale negative significand exponent).map fun n => (n, text)

/-- Reads a fraction after its point. Digits that the significand cannot hold are ignored. -/
def fractionPart (negative : Bool) (significand : Nat) (exponent : Int) (text : List Char) :
    Scan JsonNumber :=
  match text with
  | [] => .error .truncated
  | c :: _ =>
    if !Reader.isDigit c then .error .malformed
    else
      let (significand, count, rest) := accumulate significandLimit significand 0 text
      afterFraction negative significand (exponent - count) (rest.dropWhile Reader.isDigit)

/-- A number without point and exponent. Zero with a sign is a float, and so are negative
numbers beyond 64 bits. -/
def integer (negative : Bool) (n : Nat) : JsonNumber :=
  if !negative then .natural (UInt64.ofNat n)
  else if 0 < n ∧ Int64.minValue.toInt ≤ -(n : Int) then .negative (Int64.ofInt (-n))
  else .float (Binary64.ofNat n).neg

/-- Reads a number after its sign. No digit follows a leading zero. -/
def unsignedNumber (negative : Bool) (text : List Char) : Scan JsonNumber :=
  match text with
  | [] => .error .truncated
  | first :: after =>
    if !Reader.isDigit first then .error .malformed
    else if first = '0' && (after.headD 'x' |> Reader.isDigit) then .error .malformed
    else
      let (significand, _, rest) := accumulate significandLimit 0 0 text
      let dropped := rest.takeWhile Reader.isDigit
      let rest := rest.dropWhile Reader.isDigit
      match rest with
      | '.' :: fraction => fractionPart negative significand dropped.length fraction
      | 'e' :: exponent => exponentPart negative significand dropped.length exponent
      | 'E' :: exponent => exponentPart negative significand dropped.length exponent
      | _ =>
        if dropped = [] then .ok (integer negative significand, rest)
        else (scale negative significand dropped.length).map fun n => (n, rest)

/-- Four hexadecimal digits. Fewer than four bytes are the end of the text. -/
def hexUnit (text : List Char) : Scan Nat :=
  let digits := text.take 4
  if (digits.flatMap String.utf8EncodeChar).length < 4 then .error .truncated
  else
    match digits.mapM fun c => if c.toNat < 128 then Hex.digit? (UInt8.ofNat c.toNat) else none with
    | some values => .ok (values.foldl (fun n v => 16 * n + v.toNat) 0, text.drop 4)
    | none => .error .malformed

/-- A character given by its UTF-16 code units in hexadecimal. -/
def unicodeEscape (text : List Char) : Scan Char :=
  match hexUnit text with
  | .error fault => .error fault
  | .ok (unit, rest) =>
    if 0xDC00 ≤ unit ∧ unit ≤ 0xDFFF then .error .malformed
    else if unit < 0xD800 ∨ 0xDBFF < unit then .ok (Char.ofNat unit, rest)
    else
      match word ['\\', 'u'] rest with
      | .error fault => .error fault
      | .ok ((), rest) =>
        match hexUnit rest with
        | .error fault => .error fault
        | .ok (low, rest) =>
          if low < 0xDC00 ∨ 0xDFFF < low then .error .malformed
          else .ok (Char.ofNat (0x10000 + (unit - 0xD800) * 0x400 + (low - 0xDC00)), rest)

/-- The character that a backslash and a letter stand for. -/
def shortEscape? (c : Char) : Option Char :=
  if c = doubleQuote ∨ c = '\\' ∨ c = '/' then some c
  else if c = 'b' then some '\x08'
  else if c = 'f' then some '\x0c'
  else if c = 'n' then some '\n'
  else if c = 'r' then some '\r'
  else if c = 't' then some '\t'
  else none

/-- Reads a string after its opening quote. The first argument bounds the steps, and the
second holds the characters read so far, last one first. -/
def stringSteps : Nat → List Char → List Char → Scan String
  | 0, _, _ => .error .truncated
  | _ + 1, _, [] => .error .truncated
  | steps + 1, read, c :: text =>
    if c = doubleQuote then .ok (String.ofList read.reverse, text)
    else if c = '\\' then
      match text with
      | [] => .error .truncated
      | 'u' :: text =>
        match unicodeEscape text with
        | .ok (c, rest) => stringSteps steps (c :: read) rest
        | .error fault => .error fault
      | letter :: text =>
        match shortEscape? letter with
        | some c => stringSteps steps (c :: read) text
        | none => .error .malformed
    else if c < ' ' then .error .malformed
    else stringSteps steps (c :: read) text

end Scan

end DataLink
