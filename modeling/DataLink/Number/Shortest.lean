import DataLink.Number.Binary64

/-!
# Shortest decimals

A finite positive number is written with the fewest decimal digits that still read back
as that number. Among decimals of that length the nearest one is chosen, and the caller
says what happens to an exact tie. All of it is exact arithmetic in a unit that divides
both halves of a quantum and a power of ten.
-/

namespace DataLink

/-- The decimal `significand * 10 ^ exponent`. -/
structure Decimal where
  significand : Nat
  exponent : Int
  deriving DecidableEq, Repr

/-- The number of decimal digits of a positive natural below `10 ^ 40000`. The logarithm
of two is rounded down, so the guess is right or one too small. -/
def decimalLength (n : Nat) : Nat :=
  let guess := Nat.log2 n * 1233 / 4096 + 1
  if Nat.pow 10 guess ≤ n then guess + 1 else guess

namespace Shortest

/-- The magnitudes that round to one code: those between the bounds, and the bounds
themselves if `closed`. The `value` lies inside. -/
structure Interval where
  low : Nat
  value : Nat
  high : Nat
  closed : Bool
  deriving DecidableEq, Repr

/-- Whether a magnitude rounds to the interval's code. -/
def Interval.contains (i : Interval) (x : Nat) : Bool :=
  if i.closed then decide (i.low ≤ x) && decide (x ≤ i.high)
  else decide (i.low < x) && decide (x < i.high)

/-- Decimal places of the unit in which intervals are measured. -/
def places : Nat := Format.binary64.quantumPlaces + 1

/-- The interval of a code, in units of ten to the power of minus `places`. Half a
quantum is five to the power of `places` units. -/
def interval (code : Nat) : Interval :=
  let magnitude := Format.binary64.magnitude
  let unit := Nat.pow 5 places
  { low := (magnitude (code - 1) + magnitude code) * unit
    value := 2 * magnitude code * unit
    high := (magnitude code + magnitude (code + 1)) * unit
    closed := code % 2 = 0 }

/-- Of two neighbouring multiples of `step` around the value, the one to write. -/
def choose (tie : Tie) (i : Interval) (step below : Nat) : Option Nat :=
  let above := below + 1
  match i.contains (below * step), i.contains (above * step) with
  | true, true => some (roundDiv tie i.value step)
  | true, false => some below
  | false, true => some above
  | false, false => none

/-- Searches for the coarsest decimal grid with a point in the interval, from
`10 ^ drop` downwards. The grid of units holds the value itself. -/
def search (tie : Tie) (i : Interval) : Nat → Nat × Nat
  | 0 => (i.value, 0)
  | drop + 1 =>
    let step := Nat.pow 10 (drop + 1)
    match choose tie i step (i.value / step) with
    | some digits => (digits, drop + 1)
    | none => search tie i drop

end Shortest

/-- The shortest decimal of a positive finite number. -/
def Binary64.shortest (tie : Tie) (x : Binary64) : Decimal :=
  let i := Shortest.interval x.code
  let (digits, drop) := Shortest.search tie i (decimalLength i.value - 1)
  if digits % 10 = 0 then ⟨digits / 10, (drop : Int) + 1 - Shortest.places⟩
  else ⟨digits, drop - Shortest.places⟩

end DataLink
