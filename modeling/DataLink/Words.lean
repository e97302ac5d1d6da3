import DataLink.Bytes

/-!
# Words of 32 bits

The digest and the keystream both work on blocks of sixteen words, which they mix line by
line with additions, exclusive ors and rotations.
-/

namespace DataLink

/-- The first four bytes as a word, least significant first. -/
def wordOfBytes (bytes : Bytes) : UInt32 := UInt32.ofNat (Bytes.toNat (bytes.take 4))

/-- The four bytes of a word, least significant first. -/
def bytesOfWord (w : UInt32) : Bytes := Bytes.ofNat 4 w.toNat

/-- Rotates a word to the right. -/
def rotateRight (w turn : UInt32) : UInt32 := (w >>> turn) ||| (w <<< (32 - turn))

/-- Sixteen words. -/
abbrev Block := Vector UInt32 16

/-- A word of a vector, zero outside it. -/
def wordAt {n : Nat} (words : Vector UInt32 n) (i : Nat) : UInt32 := words[i]?.getD 0

namespace Block

/-- Replaces a word. -/
def put (s : Block) (i : Nat) (w : UInt32) : Block := s.setIfInBounds i w

/-- The lines of a block seen as four rows of four words: its columns, then its diagonals. -/
def lines : List (Nat × Nat × Nat × Nat) :=
  [(0, 4, 8, 12), (1, 5, 9, 13), (2, 6, 10, 14), (3, 7, 11, 15),
    (0, 5, 10, 15), (1, 6, 11, 12), (2, 7, 8, 13), (3, 4, 9, 14)]

/-- The four rotations of a mixing step. -/
structure Turns where
  first : UInt32
  second : UInt32
  third : UInt32
  fourth : UInt32

/-- Mixes the four words of a line. The words `x` and `y` are added on the way. -/
def mix (turns : Turns) (s : Block) (line : Nat × Nat × Nat × Nat) (x y : UInt32) : Block :=
  let (i, j, k, l) := line
  let a := wordAt s i + wordAt s j + x
  let d := rotateRight (wordAt s l ^^^ a) turns.first
  let c := wordAt s k + d
  let b := rotateRight (wordAt s j ^^^ c) turns.second
  let a := a + b + y
  let d := rotateRight (d ^^^ a) turns.third
  let c := c + d
  let b := rotateRight (b ^^^ c) turns.fourth
  (((s.put i a).put j b).put k c).put l d

end Block

end DataLink
