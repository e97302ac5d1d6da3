import DataLink.Number.Shortest

/-!
# Decimal text of numbers

A number is written with its shortest digits. A style decides the rest: which exponents
are written positionally, how the others look, and whether whole numbers carry `.0`.
-/

namespace DataLink

/-- How a number is laid out in text. -/
structure DecimalStyle where
  /-- Where an exact tie between two shortest decimals goes. -/
  tie : Tie
  /-- The leading digit's powers of ten that are written positionally; all if absent. -/
  positional : Option (Int × Int)
  /-- Whole numbers end in `.0`. -/
  marksWhole : Bool
  /-- A nonnegative exponent carries a plus sign. -/
  signsExponent : Bool
  deriving DecidableEq, Repr

namespace DecimalStyle

/-- Plain text: never an exponent, and whole numbers look like integers. -/
def plain : DecimalStyle := ⟨.upward, none, false, false⟩

/-- Diagnostic text: positional from `0.0001` to below `10 ^ 16`, whole numbers marked. -/
def diagnostic : DecimalStyle := ⟨.upward, some (-4, 15), true, false⟩

/-- Document text: positional from `0.00001` to below `10 ^ 16`, whole numbers marked,
exponents signed. -/
def document : DecimalStyle := ⟨.toEven, some (-5, 15), true, true⟩

/-- The digits with the point in place, and no exponent. -/
def positionalText (style : DecimalStyle) (d : Decimal) : String :=
  let digits := toString d.significand
  if 0 ≤ d.exponent then
    digits ++ "".pushn '0' d.exponent.toNat ++ (if style.marksWhole then ".0" else "")
  else
    let places := (-d.exponent).toNat
    let padded := "".pushn '0' (places + 1 - digits.length) ++ digits
    let (whole, fraction) := padded.toList.splitAt (padded.length - places)
    String.ofList whole ++ "." ++ String.ofList fraction

/-- One digit before the point, and an exponent. -/
def exponentText (style : DecimalStyle) (d : Decimal) (leading : Int) : String :=
  let digits := toString d.significand
  let mantissa :=
    match digits.toList with
    | first :: second :: rest => String.ofList (first :: '.' :: second :: rest)
    | _ => digits
  let sign := if style.signsExponent && 0 ≤ leading then "+" else ""
  mantissa ++ "e" ++ sign ++ toString leading

/-- The text of a decimal that is not zero. -/
def decimalText (style : DecimalStyle) (d : Decimal) : String :=
  let leading := d.exponent + (toString d.significand).length - 1
  match style.positional with
  | none => style.positionalText d
  | some (lowest, highest) =>
    if lowest ≤ leading ∧ leading ≤ highest then style.positionalText d
    else style.exponentText d leading

end DecimalStyle

/-- The text of a number in a style. -/
def Binary64.text (style : DecimalStyle) (x : Binary64) : String :=
  if x.isNaN then "NaN"
  else
    let sign := if x.isNegative then "-" else ""
    if x.isInfinite then sign ++ "inf"
    else if x.code = 0 then sign ++ style.positionalText ⟨0, 0⟩
    else sign ++ style.decimalText (x.shortest style.tie)

end DataLink
