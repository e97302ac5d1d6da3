import DataLink.Words

/-!
# Keystream

A reproducible stream of random words: a stream cipher of twelve rounds run over a block
counter. A keystream is its key and the number of words already taken, so equal
keystreams have equal futures.
-/

namespace DataLink

/-- A stream of random words. -/
structure Keystream where
  /-- Eight key words. -/
  key : Vector UInt32 8
  /-- Words already taken. -/
  position : Nat
  deriving DecidableEq

namespace Keystream

/-- One word of a key that grows from a seed: a linear congruence with its output
scrambled by a rotation that the state chooses. -/
def scramble (state : UInt64) : UInt32 :=
  let mixed := (((state >>> 18) ^^^ state) >>> 27).toUInt32
  let turn := (state >>> 59).toUInt32
  if turn = 0 then mixed else rotateRight mixed turn

/-- The congruence that drives key words. -/
def nextState (state : UInt64) : UInt64 := state * 6364136223846793005 + 11634580027462260723

/-- The states after the seed, one for each key word. -/
def states (seed : UInt64) : Nat → List UInt64
  | 0 => []
  | n + 1 => nextState seed :: states (nextState seed) n

/-- The stream that has these words for its key. -/
def ofKey (words : List UInt32) : Keystream := ⟨Vector.ofFn fun i => words.getD i 0, 0⟩

/-- The stream that a seed starts. -/
def ofSeed (seed : UInt64) : Keystream := .ofKey ((states seed 8).map scramble)

/-- The rotations of the stream's mixing step. -/
def turns : Block.Turns := ⟨16, 20, 24, 25⟩

/-- Mixes the columns of a block, then its diagonals. -/
def doubleRound (s : Block) : Block :=
  Block.lines.foldl (fun s line => s.mix turns line 0 0) s

/-- The block before mixing: constants, key, block counter, and an empty stream number. -/
def initial (key : Vector UInt32 8) (counter : UInt64) : Block :=
  #v[0x61707865, 0x3320646e, 0x79622d32, 0x6b206574,
    wordAt key 0, wordAt key 1, wordAt key 2, wordAt key 3,
    wordAt key 4, wordAt key 5, wordAt key 6, wordAt key 7,
    counter.toUInt32, (counter >>> 32).toUInt32, 0, 0]

/-- The sixteen words of one block of the stream. -/
def block (key : Vector UInt32 8) (counter : Nat) : List UInt32 :=
  let start := initial key (UInt64.ofNat counter)
  let mixed := (List.range 6).foldl (fun s _ => doubleRound s) start
  (mixed.zipWith (· + ·) start).toList

/-- The next words of the stream. -/
def words (k : Keystream) (count : Nat) : List UInt32 :=
  let first := k.position / 16
  let blocks := (k.position % 16 + count + 15) / 16
  (((List.range' first blocks).flatMap (block k.key)).drop (k.position % 16)).take count

/-- The stream with some words taken. -/
def skip (k : Keystream) (count : Nat) : Keystream := { k with position := k.position + count }

/-- A stream of its own for every number. Its key is made of words of this one. -/
def branch (k : Keystream) (n : Nat) : Keystream := .ofKey ((k.skip (8 * n)).words 8)

/-- The next word. -/
def next32 (k : Keystream) : Nat × Keystream :=
  (((k.words 1).headD 0).toNat, k.skip 1)

/-- The next two words as one number, the low half first. -/
def next64 (k : Keystream) : Nat × Keystream :=
  match k.words 2 with
  | [low, high] => (low.toNat + UInt32.size * high.toNat, k.skip 2)
  | _ => (0, k.skip 2)

/-- Words that a string of bytes uses up. -/
def wordsFor (count : Nat) : Nat := (count + 3) / 4

/-- The next bytes. Unused bytes of the last word are lost. -/
def bytes (k : Keystream) (count : Nat) : Bytes :=
  ((k.words (wordsFor count)).flatMap bytesOfWord).take count

/-- The stream after taking bytes. -/
def afterBytes (k : Keystream) (count : Nat) : Keystream := k.skip (wordsFor count)

/-- The high half of a product of a draw with a range, for the first draw whose low half
is at most `zone`. After `attempts` draws the last one is taken as it is. -/
def sampleHigh (draw : Keystream → Nat × Keystream) (size range zone : Nat) :
    Nat → Keystream → Nat × Keystream
  | 0, k =>
    let (v, k) := draw k
    (v * range / size, k)
  | attempts + 1, k =>
    let (v, k') := draw k
    if v * range % size ≤ zone then (v * range / size, k')
    else sampleHigh draw size range zone attempts k'

/-- Draws after which rejection gives up; each is rejected with probability below a half. -/
def maxAttempts : Nat := 1024

/-- A number below `range`, each equally likely, for a positive range below `2 ^ 64`. -/
def below (k : Keystream) (range : Nat) : Nat × Keystream :=
  let zone := range * Nat.pow 2 (63 - Nat.log2 range) - 1
  sampleHigh next64 UInt64.size range zone maxAttempts k

/-- A byte that is not zero, each equally likely. -/
def nonzeroByte (k : Keystream) : UInt8 × Keystream :=
  let zone := UInt32.size - 1 - (UInt32.size - 255) % 255
  let (high, k) := sampleHigh next32 UInt32.size 255 zone maxAttempts k
  (UInt8.ofNat (1 + high), k)

end Keystream

/-- Generators for what is not seeded. They need have nothing in common. -/
structure Entropy where
  /-- The nonces of every signature of a layout, in the order in which the signatures are built. -/
  nonces : Nat → Keystream
  /-- Interference with input. -/
  input : Keystream
  /-- Interference with output. -/
  output : Keystream

/-- Generators that are branches of one stream. -/
def Entropy.ofStream (k : Keystream) : Entropy where
  nonces n := k.branch (n + 2)
  input := k.branch 0
  output := k.branch 1

/-- A number stands for the generators that it determines, so that runs can be repeated. -/
instance (n : Nat) : OfNat Entropy n := ⟨.ofStream (.ofSeed (UInt64.ofNat n))⟩

end DataLink
