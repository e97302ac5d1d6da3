import DataLink.Keystream
import DataLink.Number.Binary64

/-!
# Interference

A source of interference spoils single bytes of a transmission now and then, from a
reproducible stream, to exercise recovery on a healthy channel.
-/

namespace DataLink

/-- A source of interference. -/
structure Interference where
  /-- The probability that a string of bytes is hit. -/
  probability : Binary64
  noise : Keystream
  deriving DecidableEq

/-- A string of bytes that went through interference. -/
structure Disturbed where
  bytes : Bytes
  /-- Where a byte was hit. -/
  hit : Option Nat
  next : Interference

namespace Interference

/-- A source that starts from a seed. -/
def ofSeed (probability : Binary64) (seed : UInt64) : Interference :=
  ⟨probability, .ofSeed seed⟩

/-- A source that starts from the seed if there is one, and from a generator of its own if not. -/
def start (probability : Binary64) (seed : Option UInt64) (unseeded : Keystream) : Interference :=
  match seed with
  | some seed => .ofSeed probability seed
  | none => ⟨probability, unseeded⟩

/-- Draws whether a hit occurs. Certainty draws nothing. -/
def draw (i : Interference) : Bool × Keystream :=
  if i.probability = .one then (true, i.noise)
  else
    let (v, noise) := i.noise.next64
    (v < i.probability.floorScaled UInt64.size, noise)

/-- Perhaps spoils one byte. No draw is made for an empty string or without probability. -/
def disturb (i : Interference) (bytes : Bytes) : Disturbed :=
  if bytes = [] || i.probability.le .zero then ⟨bytes, none, i⟩
  else
    match i.draw with
    | (false, noise) => ⟨bytes, none, { i with noise }⟩
    | (true, noise) =>
      let (index, noise) := noise.below bytes.length
      let (mask, noise) := noise.nonzeroByte
      ⟨bytes.modify index (· ^^^ mask), some index, { i with noise }⟩

end Interference

end DataLink
