/-!
# Sets of characters

A set of characters is kept as the increasing code points at which membership flips, so
each maximal range of members takes two entries.
-/

namespace DataLink

/-- A set of characters, by the code points at which membership flips. -/
structure CharSet where
  flips : List Nat
  deriving DecidableEq, Repr

/-- A character belongs to a set if an odd number of flips lie at or before it. -/
def CharSet.contains (s : CharSet) (c : Char) : Bool :=
  (s.flips.takeWhile (· ≤ c.toNat)).length % 2 = 1

/-- The characters from one code point to another. -/
def CharSet.between (first last : Nat) : CharSet := ⟨[first, last + 1]⟩

end DataLink
