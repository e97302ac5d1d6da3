import DataLink.Digest
import DataLink.Keystream
import DataLink.Packet.Bits

/-!
# Packets

A packet is a node of the wire tree. Its leaves read and write cells; the inner nodes
put packets in sequence, sign them against tampering, or mark them with a magic.

Emitting reads the cells. What changes with time is kept in the tree: the nonces of the
signatures and the cadence of the envelopes, which `advance` steps. Decoding is a function of
the tree and the input alone. It yields the staged values of the leaves in wire order,
also of those that stand before the place where it fails.
-/

namespace DataLink

/-- The parameters of a signature. A random nonce precedes the signed packets on the
wire, and a digest over nonce, key and packets follows them. -/
structure Signature where
  nonceBytes : Nat
  digestBytes : Nat
  key : Bytes
  /-- Where the next nonce comes from. -/
  nonces : Keystream
  nonceBytes_pos : 0 < nonceBytes
  digestBytes_pos : 0 < digestBytes
  digestBytes_le : digestBytes ≤ 32
  key_ne : key ≠ []

namespace Signature

/-- A signature, if its lengths are in range and its key is not empty. -/
def new (nonceBytes digestBytes : Nat) (key : Bytes) (nonces : Keystream) :
    Except ConfigFault Signature :=
  if hnonce : 0 < nonceBytes then
    if hdigest : 0 < digestBytes ∧ digestBytes ≤ 32 then
      if hkey : key ≠ [] then
        .ok ⟨nonceBytes, digestBytes, key, nonces, hnonce, hdigest.1, hdigest.2, hkey⟩
      else .error .emptyKey
    else .error (.digestBytes digestBytes)
  else .error .nonceBytes

/-- The digest that protects a payload under a nonce. -/
def tag (s : Signature) (nonce payload : Bytes) : Bytes :=
  (digest (nonce ++ s.key ++ payload)).take s.digestBytes

/-- The next nonce. -/
def nonce (s : Signature) : Bytes := s.nonces.bytes s.nonceBytes

/-- A signed payload as sent: nonce, payload, digest. -/
def wrap (s : Signature) (payload : Bytes) : Bytes := s.nonce ++ payload ++ s.tag s.nonce payload

/-- Uses up the nonce. -/
def next (s : Signature) : Signature := { s with nonces := s.nonces.afterBytes s.nonceBytes }

end Signature

/-- The magic and the cadence of an envelope. -/
structure Header where
  magic : Bytes
  /-- The envelope is emitted once in so many turns. -/
  sendEvery : UInt64
  /-- Moves the turn on which it is emitted. -/
  sendOffset : UInt64
  /-- Turns so far, modulo `2 ^ 64`. -/
  turns : UInt64
  magic_ne : magic ≠ []
  sendEvery_ne : sendEvery ≠ 0

namespace Header

/-- A header before its first turn, if its magic is not empty and its divisor is not zero. -/
def new (magic : Bytes) (sendEvery sendOffset : UInt64) : Except ConfigFault Header :=
  if hmagic : magic ≠ [] then
    if hevery : sendEvery ≠ 0 then .ok ⟨magic, sendEvery, sendOffset, 0, hmagic, hevery⟩
    else .error .sendEvery
  else .error .emptyMagic

/-- Whether the envelope is emitted on the coming turn. -/
def isDue (h : Header) : Bool := (h.turns + h.sendOffset) % h.sendEvery = 0

/-- Takes a turn. -/
def next (h : Header) : Header := { h with turns := h.turns + 1 }

end Header

/-- A node of the wire tree. -/
inductive Packet where
  | field (f : Field)
  | bits (sources : List BitSource)
  | sequence (packets : List Packet)
  | signature (signature : Signature) (packets : List Packet)
  | envelope (header : Header) (packets : List Packet)

/-- A part of a packet that carries one cell. -/
inductive Leaf where
  | field (f : Field)
  | source (s : BitSource)
  deriving DecidableEq, Repr

namespace Leaf

/-- How the leaf is attached to its cell. -/
def binding : Leaf → Binding
  | .field f => f.binding
  | .source s => s.binding

/-- The kind of cell the leaf carries. -/
def kind : Leaf → CellKind
  | .field f => f.kind
  | .source s => s.kind

/-- The value delivered for a staged one. -/
def restore : Leaf → Value → Value
  | .field f, value => f.restore value
  | .source _, value => value

/-- Delivers a staged value to the leaf's cell. -/
def deliver (leaf : Leaf) (cells : Cells) (staged : Option Value) : Cells :=
  leaf.binding.deliver cells (staged.map leaf.restore)

/-- Clears the leaf's cell unless it is retained. -/
def failsafe (leaf : Leaf) (cells : Cells) : Cells := leaf.binding.failsafe cells

end Leaf

/-- What decoding yields: values for the leaves it reached, and the bytes consumed. -/
structure Decoded where
  staged : List (Option Value)
  outcome : Except WireFault Nat

namespace Packet

mutual

/-- The leaves in wire order. -/
def leaves : Packet → List Leaf
  | .field f => [.field f]
  | .bits sources => sources.map .source
  | .sequence packets => allLeaves packets
  | .signature _ packets => allLeaves packets
  | .envelope _ packets => allLeaves packets

/-- The leaves of packets in sequence. -/
def allLeaves : List Packet → List Leaf
  | [] => []
  | p :: rest => p.leaves ++ allLeaves rest

end

mutual

/-- The bytes that decoding consumes. -/
def size : Packet → Nat
  | .field f => f.size
  | .bits sources => BitSource.totalBytes sources
  | .sequence packets => totalSize packets
  | .signature sig packets => sig.nonceBytes + totalSize packets + sig.digestBytes
  | .envelope header packets => header.magic.length + totalSize packets

/-- The size of packets in sequence. -/
def totalSize : List Packet → Nat
  | [] => 0
  | p :: rest => p.size + totalSize rest

end

mutual

/-- The bytes sent for the cells' values. An envelope that is not due sends none. -/
def emit (cells : Cells) : Packet → Bytes
  | .field f => f.encode (cells.value? f.binding.cell)
  | .bits sources => BitSource.encodeAll sources cells
  | .sequence packets => emitAll cells packets
  | .signature sig packets => sig.wrap (emitAll cells packets)
  | .envelope header packets => if header.isDue then header.magic ++ emitAll cells packets else []

/-- The bytes of packets in sequence. -/
def emitAll (cells : Cells) : List Packet → Bytes
  | [] => []
  | p :: rest => p.emit cells ++ emitAll cells rest

end

mutual

/-- The packet after one emission. An envelope that is not due leaves its packets alone. -/
def advance : Packet → Packet
  | .field f => .field f
  | .bits sources => .bits sources
  | .sequence packets => .sequence (advanceAll packets)
  | .signature sig packets => .signature sig.next (advanceAll packets)
  | .envelope header packets =>
    .envelope header.next (if header.isDue then advanceAll packets else packets)

/-- Packets in sequence after one emission. -/
def advanceAll : List Packet → List Packet
  | [] => []
  | p :: rest => p.advance :: advanceAll rest

end

/-- Decodes `body` if the input is not shorter than `size`. -/
def needing (size : Nat) (input : Bytes) (body : Decoded) : Decoded :=
  if input.shorterThan size then ⟨[], .error (.insufficient size input.length)⟩ else body

mutual

/-- Decodes from the front of the input. -/
def decode : Packet → Bytes → Decoded
  | .field f, input => needing f.size input ⟨[f.decode (input.take f.size)], .ok f.size⟩
  | .bits sources, input =>
    let size := BitSource.totalBytes sources
    needing size input
      ⟨(BitSource.decodeAll sources (Bits.unpack (input.take size))).map some, .ok size⟩
  | .sequence packets, input => needing (totalSize packets) input (decodeAll packets input)
  | .signature sig packets, input =>
    let payloadSize := totalSize packets
    let size := sig.nonceBytes + payloadSize + sig.digestBytes
    let nonce := input.take sig.nonceBytes
    let payload := (input.drop sig.nonceBytes).take payloadSize
    let received := (input.drop (sig.nonceBytes + payloadSize)).take sig.digestBytes
    needing size input <|
      if sig.tag nonce payload = received then
        let inner := decodeAll packets payload
        ⟨inner.staged, inner.outcome.map fun _ => size⟩
      else ⟨[], .error .signatureMismatch⟩
  | .envelope header packets, input =>
    let payloadSize := totalSize packets
    needing (header.magic.length + payloadSize) input <|
      if input.take header.magic.length = header.magic then
        let inner := decodeAll packets ((input.drop header.magic.length).take payloadSize)
        ⟨inner.staged, inner.outcome.map fun n => header.magic.length + n⟩
      else ⟨[], .error .unknownMagic⟩

/-- Decodes packets one after another. A failure keeps what was staged before it. -/
def decodeAll : List Packet → Bytes → Decoded
  | [], _ => ⟨[], .ok 0⟩
  | p :: rest, input =>
    let first := p.decode input
    match first.outcome with
    | .error fault => ⟨first.staged, .error fault⟩
    | .ok n =>
      let others := decodeAll rest (input.drop n)
      ⟨first.staged ++ others.staged, others.outcome.map fun m => n + m⟩

end

end Packet

/-- Values staged for the leaves of a packet, in wire order. -/
abbrev Staged := List (Option Value)

namespace Staged

/-- Nothing staged yet. -/
def empty (leaves : List Leaf) : Staged := List.replicate leaves.length none

/-- Newly decoded values replace the first of the old ones. -/
def overlay (old new : Staged) : Staged := new ++ old.drop new.length

/-- Delivers staged values to the leaves' cells, in wire order. -/
def deliver (leaves : List Leaf) (staged : Staged) (cells : Cells) : Cells :=
  (leaves.zip staged).foldl (fun cells (leaf, value) => leaf.deliver cells value) cells

/-- Clears the cells that are not retained, in wire order. -/
def failsafe (leaves : List Leaf) (cells : Cells) : Cells :=
  leaves.foldl (fun cells leaf => leaf.failsafe cells) cells

end Staged

end DataLink
