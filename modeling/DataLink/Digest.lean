import DataLink.Words

/-!
# Digest

The unkeyed tree hash that protects signed packets. A message is cut into chunks of 1024
bytes and chunks into blocks of 64. Blocks of a chunk are chained; the chunks are the
leaves of a binary tree whose left subtrees are complete. The last compression, at the
root, gives the 32 bytes of the digest.
-/

namespace DataLink

namespace Digest

/-- A chaining value. -/
abbrev Chain := Vector UInt32 8

/-- The initial chaining value. -/
def start : Chain :=
  #v[0x6a09e667, 0xbb67ae85, 0x3c6ef372, 0xa54ff53a,
    0x510e527f, 0x9b05688c, 0x1f83d9ab, 0x5be0cd19]

/-- Marks the first block of a chunk. -/
def chunkStart : UInt32 := 1

/-- Marks the last block of a chunk. -/
def chunkEnd : UInt32 := 2

/-- Marks an inner node of the tree. -/
def parent : UInt32 := 4

/-- Marks the compression at the root. -/
def root : UInt32 := 8

/-- The order in which a round hands its message words to the next. -/
def schedule : Vector Nat 16 := #v[2, 6, 3, 10, 7, 0, 4, 13, 1, 11, 12, 5, 9, 14, 15, 8]

/-- The rotations of the digest's mixing step. -/
def turns : Block.Turns := ⟨16, 12, 8, 7⟩

/-- One round: each line takes in two message words. -/
def round (s m : Block) : Block :=
  Block.lines.zipIdx.foldl
    (fun s (line, i) => s.mix turns line (wordAt m (2 * i)) (wordAt m (2 * i + 1))) s

/-- A number of rounds, with the message words reordered between them. -/
def rounds : Nat → Block → Block → Block
  | 0, s, _ => s
  | n + 1, s, m => rounds n (round s m) (schedule.map fun i => wordAt m i)

/-- A compression whose flags may still be extended. -/
structure Node where
  chain : Chain
  block : Block
  counter : UInt64
  length : UInt32
  flags : UInt32

/-- Runs a compression with extra flags and keeps the chaining value. -/
def Node.compress (n : Node) (extra : UInt32) : Chain :=
  let c := wordAt n.chain
  let h := wordAt start
  let state : Block :=
    #v[c 0, c 1, c 2, c 3, c 4, c 5, c 6, c 7, h 0, h 1, h 2, h 3,
      n.counter.toUInt32, (n.counter >>> 32).toUInt32, n.length, n.flags ||| extra]
  let mixed := rounds 7 state n.block
  Vector.ofFn fun i => wordAt mixed i ^^^ wordAt mixed (i + 8)

/-- Up to 64 bytes as sixteen words, zeros after the end. -/
def blockOfBytes (bytes : Bytes) : Block :=
  let padded := bytes ++ List.replicate (64 - bytes.length) 0
  Vector.ofFn fun i => wordOfBytes (padded.drop (4 * i))

/-- The chunk's last compression, given the chain so far and the bytes that remain. -/
def chunkFrom (counter : UInt64) : Nat → Chain → UInt32 → Bytes → Node
  | 0, chain, flags, bytes =>
    ⟨chain, blockOfBytes bytes, counter, UInt32.ofNat bytes.length, flags ||| chunkEnd⟩
  | fuel + 1, chain, flags, bytes =>
    let rest := bytes.drop 64
    if rest = [] then
      ⟨chain, blockOfBytes bytes, counter, UInt32.ofNat bytes.length, flags ||| chunkEnd⟩
    else
      let block := blockOfBytes (bytes.take 64)
      chunkFrom counter fuel (Node.compress ⟨chain, block, counter, 64, flags⟩ 0) 0 rest

/-- The last compression of one chunk of at most 1024 bytes. -/
def chunk (counter : Nat) (bytes : Bytes) : Node :=
  chunkFrom (UInt64.ofNat counter) 15 start chunkStart bytes

/-- The compression that joins two subtrees. -/
def join (left right : Node) : Node :=
  ⟨start, left.compress 0 ++ right.compress 0, 0, 64, parent⟩

/-- Chunks in the left subtree of a tree: the largest power of two below their number. -/
def leftChunks (chunks : Nat) : Nat := Nat.pow 2 (Nat.log2 (chunks - 1))

/-- The tree over a message, whose first chunk has the given number. The first argument
bounds the height. -/
def tree : Nat → Nat → Bytes → Node
  | 0, counter, bytes => chunk counter bytes
  | height + 1, counter, bytes =>
    if bytes.length ≤ 1024 then chunk counter bytes
    else
      let left := leftChunks ((bytes.length + 1023) / 1024)
      join (tree height counter (bytes.take (1024 * left)))
        (tree height (counter + left) (bytes.drop (1024 * left)))

end Digest

/-- The digest of a message, 32 bytes. -/
def digest (message : Bytes) : Bytes :=
  let chain := (Digest.tree 64 0 message).compress Digest.root
  chain.toList.flatMap bytesOfWord

end DataLink
