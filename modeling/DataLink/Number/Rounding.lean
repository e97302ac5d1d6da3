/-!
# Nearest integers

A quotient of naturals is rounded to the nearest integer. An exact half goes to the
even neighbour or upwards, as the caller asks.
-/

namespace DataLink

/-- Where a quotient that lies exactly between two integers goes. -/
inductive Tie where
  | toEven
  | upward
  deriving DecidableEq, Repr

/-- The integer nearest to `num / den`. -/
def roundDiv (tie : Tie) (num den : Nat) : Nat :=
  let below := num / den
  let twice := 2 * (num % den)
  if twice < den then below
  else if den < twice then below + 1
  else
    match tie with
    | .toEven => below + below % 2
    | .upward => below + 1

/-- A multiple of the denominator is rounded to its exact quotient. -/
theorem roundDiv_mul_right (tie : Tie) (n : Nat) {den : Nat} (hden : 0 < den) :
    roundDiv tie (n * den) den = n := by
  simp [roundDiv, Nat.mul_div_cancel _ hden, hden]

end DataLink
