import DataLink.Number.Format

/-!
# Double-precision numbers

Numbers are their bit patterns. Every operation computes the exact result on naturals
and rounds once to nearest, ties to even. An operation whose result is not a number
yields the one canonical pattern `nan`.
-/

namespace DataLink

/-- A double-precision number, by its pattern. -/
structure Binary64 where
  bits : UInt64
  deriving DecidableEq, Repr

namespace Binary64

/-- The number with this sign and code. -/
def ofCode (negative : Bool) (code : Nat) : Binary64 :=
  ⟨UInt64.ofNat (if negative then Format.binary64.signPlace + code else code)⟩

/-- The canonical pattern of a result that is not a number. -/
def nan : Binary64 := ofCode false Format.binary64.quietNaN

/-- An infinity. -/
def infinity (negative : Bool) : Binary64 := ofCode negative Format.binary64.infinity

/-- Positive zero. -/
def zero : Binary64 := ofCode false 0

/-- Zero, where any number will do. -/
instance : Inhabited Binary64 := ⟨zero⟩

/-- The sign bit. -/
def isNegative (x : Binary64) : Bool := Format.binary64.signPlace ≤ x.bits.toNat

/-- The pattern without its sign bit. -/
def code (x : Binary64) : Nat := x.bits.toNat % Format.binary64.signPlace

/-- Neither an infinity nor not-a-number. -/
def isFinite (x : Binary64) : Bool := x.code < Format.binary64.infinity

/-- One of the two infinities. -/
def isInfinite (x : Binary64) : Bool := x.code = Format.binary64.infinity

/-- Not a number. -/
def isNaN (x : Binary64) : Bool := Format.binary64.infinity < x.code

/-- The magnitude in quanta of two to the power of minus 1074. -/
def quanta (x : Binary64) : Nat := Format.binary64.magnitude x.code

/-- The signed value in quanta. -/
def scaled (x : Binary64) : Int := if x.isNegative then -(x.quanta : Int) else x.quanta

/-- The sign bit flipped. -/
def neg (x : Binary64) : Binary64 := ofCode (!x.isNegative) x.code

/-- The finite number or infinity nearest to `num / den` quanta, with the given sign. -/
def ofQuotient (negative : Bool) (num den : Nat) : Binary64 :=
  ofCode negative (Format.binary64.nearest num den)

/-- A quantum is one over this. -/
def perUnit : Nat := Nat.pow 2 Format.binary64.quantumPlaces

/-- The number nearest to a natural. -/
def ofNat (n : Nat) : Binary64 := ofQuotient false (n * perUnit) 1

/-- The number nearest to an integer. -/
def ofInt (n : Int) : Binary64 := ofQuotient (n < 0) (n.natAbs * perUnit) 1

/-- The rounded sum. A zero sum is negative only if both terms are. -/
def add (x y : Binary64) : Binary64 :=
  if x.isNaN || y.isNaN then nan
  else if x.isInfinite then
    if y.isInfinite && x.isNegative != y.isNegative then nan else x
  else if y.isInfinite then y
  else
    let sum := x.scaled + y.scaled
    if sum = 0 then ofCode (x.isNegative && y.isNegative) 0
    else ofQuotient (sum < 0) sum.natAbs 1

/-- The rounded difference. -/
def sub (x y : Binary64) : Binary64 := x.add y.neg

/-- The rounded product. -/
def mul (x y : Binary64) : Binary64 :=
  let negative := x.isNegative != y.isNegative
  if x.isNaN || y.isNaN then nan
  else if x.isInfinite || y.isInfinite then
    if x.code = 0 || y.code = 0 then nan else infinity negative
  else ofQuotient negative (x.quanta * y.quanta) perUnit

/-- The rounded quotient. -/
def div (x y : Binary64) : Binary64 :=
  let negative := x.isNegative != y.isNegative
  if x.isNaN || y.isNaN then nan
  else if x.isInfinite then
    if y.isInfinite then nan else infinity negative
  else if y.isInfinite then ofCode negative 0
  else if y.code = 0 then
    if x.code = 0 then nan else infinity negative
  else ofQuotient negative (x.quanta * perUnit) y.quanta

/-- Numbers in increasing order; the two zeros agree. -/
def rank (x : Binary64) : Int := if x.isNegative then -(x.code : Int) else x.code

/-- At most; never of what is not a number. -/
def le (x y : Binary64) : Bool := !x.isNaN && !y.isNaN && decide (x.rank ≤ y.rank)

/-- Less; never of what is not a number. -/
def lt (x y : Binary64) : Bool := !x.isNaN && !y.isNaN && decide (x.rank < y.rank)

/-- The number one. -/
def one : Binary64 := ofNat 1

/-- Between zero and one, both included. -/
def isProbability (x : Binary64) : Bool := zero.le x && x.le one

/-- The integer nearest to a nonnegative finite number times `scale`, ties to even. -/
def roundScaled (x : Binary64) (scale : Nat) : Nat :=
  roundDiv .toEven (x.quanta * scale) perUnit

/-- The whole part of a nonnegative finite number times `scale`. -/
def floorScaled (x : Binary64) (scale : Nat) : Nat := x.quanta * scale / perUnit

end Binary64

namespace Format

variable (f : Format)

/-- The ratio of the format's quantum to that of double precision. -/
def coarseness : Nat := Nat.pow 2 (binary64.quantumPlaces - f.quantumPlaces)

/-- The number a pattern of this format denotes. Double precision holds all of them. -/
def decode (pattern : Nat) : Binary64 :=
  let negative := decide (f.signPlace ≤ pattern)
  let code := pattern % f.signPlace
  if f.infinity < code then .nan
  else if code = f.infinity then .infinity negative
  else .ofQuotient negative (f.magnitude code * f.coarseness) 1

/-- The pattern nearest to a number, ties to even. -/
def encode (x : Binary64) : Nat :=
  if x.isNaN then f.quietNaN
  else
    let code :=
      if x.isInfinite then f.infinity else f.nearest x.quanta f.coarseness
    if x.isNegative then f.signPlace + code else code

/-- Whether a pattern is an infinity of either sign. -/
def isInfinity (pattern : Nat) : Bool := pattern % f.signPlace = f.infinity

end Format

end DataLink
