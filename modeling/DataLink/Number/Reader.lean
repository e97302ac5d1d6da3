import DataLink.Number.Binary64

/-!
# Reading numbers

Integers are decimal digits with an optional sign. Numbers with a fraction have digits
on at least one side of an optional point and an optional exponent, or are one of the
words for infinity and not-a-number. They are rounded once, from their exact value.
-/

namespace DataLink

namespace Reader

/-- The value of a decimal digit. -/
def digit? (c : Char) : Option Nat :=
  if '0' ≤ c ∧ c ≤ '9' then some (c.toNat - '0'.toNat) else none

/-- Whether a character is a decimal digit. -/
def isDigit (c : Char) : Bool := (digit? c).isSome

/-- The natural that a string of digits spells, most significant digit first. -/
def natural (digits : List Char) : Nat :=
  digits.foldl (fun n c => 10 * n + (digit? c).getD 0) 0

/-- The natural spelled by one or more digits and nothing else. -/
def natural? (text : List Char) : Option Nat :=
  if text ≠ [] ∧ text.all isDigit then some (natural text) else none

/-- A leading sign and what follows it. -/
def splitSign : List Char → Bool × List Char
  | '-' :: rest => (true, rest)
  | '+' :: rest => (false, rest)
  | text => (false, text)

end Reader

open Reader

/-- Reads an unsigned integer: digits, possibly after a plus sign. -/
def readUnsigned? (text : List Char) : Option UInt64 :=
  match (match text with | '+' :: rest => natural? rest | _ => natural? text) with
  | some n => if n < UInt64.size then some (UInt64.ofNat n) else none
  | none => none

/-- Reads a signed integer: digits, possibly after a sign. -/
def readSigned? (text : List Char) : Option Int64 :=
  let (negative, digits) := splitSign text
  match natural? digits with
  | some n =>
    let value : Int := if negative then -(n : Int) else n
    if Int64.minValue.toInt ≤ value ∧ value ≤ Int64.maxValue.toInt then some (Int64.ofInt value)
    else none
  | none => none

/-- The number nearest to `significand * 10 ^ exponent`. Exponents far outside the range
of finite numbers are settled by size alone. -/
def Binary64.ofDecimal (negative : Bool) (significand : Nat) (exponent : Int) : Binary64 :=
  let digits : Int := significand.log2 + 1
  if significand = 0 then ofCode negative 0
  else if 400 < exponent then infinity negative
  else if digits + 3 * exponent < -1200 then ofCode negative 0
  else if 0 ≤ exponent then
    ofQuotient negative (significand * Nat.pow 10 exponent.toNat * perUnit) 1
  else ofQuotient negative (significand * perUnit) (Nat.pow 10 (-exponent).toNat)

/-- Reads the exponent part of a number; no text is exponent zero. -/
def readExponent? : List Char → Option Int
  | [] => some 0
  | mark :: rest =>
    if mark = 'e' ∨ mark = 'E' then
      let (negative, digits) := splitSign rest
      (natural? digits).map fun n => if negative then -(n : Int) else n
    else none

/-- Reads digits with an optional point and an optional exponent. -/
def readDecimal? (negative : Bool) (text : List Char) : Option Binary64 :=
  let whole := text.takeWhile isDigit
  let rest := text.dropWhile isDigit
  let (fraction, rest) :=
    match rest with
    | '.' :: tail => (tail.takeWhile isDigit, tail.dropWhile isDigit)
    | _ => ([], rest)
  if whole = [] ∧ fraction = [] then none
  else
    (readExponent? rest).map fun exponent =>
      .ofDecimal negative (natural (whole ++ fraction)) (exponent - fraction.length)

/-- Reads a number in double precision. Words are recognised in either letter case. -/
def readBinary64? (text : List Char) : Option Binary64 :=
  let (negative, body) := splitSign text
  let word := String.ofList (body.map Char.toLower)
  if word = "inf" ∨ word = "infinity" then some (.infinity negative)
  else if word = "nan" then some .nan
  else readDecimal? negative body

end DataLink
