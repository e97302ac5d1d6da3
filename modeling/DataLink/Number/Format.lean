import DataLink.Number.Rounding

/-!
# Binary floating-point formats

A format has a sign bit, an exponent field and a fraction field. Without its sign bit a
pattern is a *code*. Codes below `infinity` denote the finite magnitudes in increasing
order, each an integer multiple of the format's smallest positive number, its *quantum*.
So exact values are naturals, and rounding is one rounded quotient.
-/

namespace DataLink

/-- Field widths of a binary interchange format. -/
structure Format where
  /-- Width of the exponent field. -/
  exponentBits : Nat
  /-- Width of the stored fraction. -/
  fractionBits : Nat
  deriving DecidableEq, Repr

namespace Format

/-- Half precision, two bytes. -/
def binary16 : Format := ⟨5, 10⟩

/-- Single precision, four bytes. -/
def binary32 : Format := ⟨8, 23⟩

/-- Double precision, eight bytes. -/
def binary64 : Format := ⟨11, 52⟩

variable (f : Format)

/-- The value of the sign bit; every code is smaller. -/
def signPlace : Nat := Nat.pow 2 (f.exponentBits + f.fractionBits)

/-- The code of infinity; larger codes are not numbers. -/
def infinity : Nat := (Nat.pow 2 f.exponentBits - 1) * Nat.pow 2 f.fractionBits

/-- The code of the quiet not-a-number with an otherwise empty fraction. -/
def quietNaN : Nat := f.infinity + Nat.pow 2 (f.fractionBits - 1)

/-- The quantum is two to the power of minus this. -/
def quantumPlaces : Nat := Nat.pow 2 (f.exponentBits - 1) + f.fractionBits - 2

/-- The number of binades a code lies above the subnormals' spacing. -/
def binade (code : Nat) : Nat := code / Nat.pow 2 f.fractionBits - 1

/-- The magnitude a code denotes, in quanta. -/
def magnitude (code : Nat) : Nat :=
  (code - f.binade code * Nat.pow 2 f.fractionBits) * Nat.pow 2 (f.binade code)

/-- The code nearest to `num / den` quanta, ties to even. Magnitudes that round past the
largest finite one become infinity. -/
def nearest (num den : Nat) : Nat :=
  let binade := Nat.log2 (num / den) - f.fractionBits
  min f.infinity
    (binade * Nat.pow 2 f.fractionBits + roundDiv .toEven num (den * Nat.pow 2 binade))

end Format

end DataLink
