import DataLink.Packet

/-!
# Envelopes and protocols

A protocol is the list of envelopes that a link speaks. Magics have one length, so the
leading bytes of the input tell which envelope follows. Eating an envelope only stages
its values; delivering them to the cells is a step of its own.
-/

namespace DataLink

/-- An outermost envelope with the values staged for its leaves. -/
structure Envelope where
  header : Header
  packets : List Packet
  staged : Staged

namespace Envelope

/-- An envelope with nothing staged, if its header is valid. -/
def new (magic : Bytes) (sendEvery sendOffset : UInt64) (packets : List Packet) :
    Except ConfigFault Envelope :=
  (Header.new magic sendEvery sendOffset).map fun header =>
    ⟨header, packets, .empty (Packet.allLeaves packets)⟩

/-- The envelope as a node of the wire tree. -/
def packet (e : Envelope) : Packet := .envelope e.header e.packets

/-- The leaves in wire order. -/
def leaves (e : Envelope) : List Leaf := Packet.allLeaves e.packets

/-- Bytes without the magic. -/
def payloadSize (e : Envelope) : Nat := Packet.totalSize e.packets

/-- Bytes with the magic. -/
def size (e : Envelope) : Nat := e.packet.size

/-- Whether the envelope is emitted on the coming turn. -/
def isDue (e : Envelope) : Bool := e.header.isDue

/-- The bytes sent on the coming turn, none unless it is due. -/
def emit (e : Envelope) (cells : Cells) : Bytes := e.packet.emit cells

/-- The envelope after its turn. -/
def advance (e : Envelope) : Envelope :=
  { e with
    header := e.header.next
    packets := if e.header.isDue then Packet.advanceAll e.packets else e.packets }

/-- Stages newly decoded values. -/
def stage (e : Envelope) (values : Staged) : Envelope :=
  { e with staged := e.staged.overlay values }

/-- Delivers the staged values. -/
def deliver (e : Envelope) (cells : Cells) : Cells := Staged.deliver e.leaves e.staged cells

/-- Clears the cells that are not retained. -/
def failsafe (e : Envelope) (cells : Cells) : Cells := Staged.failsafe e.leaves cells

end Envelope

/-- An envelope that was eaten: its place in the protocol and its bytes. -/
structure Eaten where
  envelope : Nat
  consumed : Nat
  deriving DecidableEq, Repr

/-- The envelopes that a link speaks. -/
structure Protocol where
  envelopes : List Envelope

namespace Protocol

/-- The length of all magics. -/
def magicSize (p : Protocol) : Nat :=
  match p.envelopes with
  | [] => 0
  | first :: _ => first.header.magic.length

/-- The size of all envelopes together. -/
def size (p : Protocol) : Nat :=
  p.envelopes.foldr (fun e total => e.size + total) 0

/-- Checks the magics in order: each must have the common length and must not have
occurred before. -/
def checkMagics (magicSize : Nat) : List Bytes → List Envelope → Except ConfigFault Unit
  | _, [] => .ok ()
  | seen, e :: rest =>
    let magic := e.header.magic
    if magic.length ≠ magicSize then .error (.magicSize magicSize magic.length)
    else if seen.contains magic then .error (.duplicateMagic magic)
    else checkMagics magicSize (magic :: seen) rest

/-- Checks the sizes in order: each magic must have the common length, and each payload
must not be empty. -/
def checkSizes (magicSize : Nat) : List Envelope → Except ConfigFault Unit
  | [] => .ok ()
  | e :: rest =>
    if e.header.magic.length ≠ magicSize then
      .error (.magicSize magicSize e.header.magic.length)
    else if e.payloadSize = 0 then .error (.emptyEnvelope e.header.magic)
    else checkSizes magicSize rest

/-- Checks a protocol once more. -/
def verify (p : Protocol) : Except ConfigFault Unit :=
  match p.envelopes with
  | [] => .error .noEnvelopes
  | _ :: _ => checkSizes p.magicSize p.envelopes

/-- A protocol of one or more envelopes with distinct magics of one length and with
payloads that are not empty. -/
def new (envelopes : List Envelope) : Except ConfigFault Protocol :=
  let p : Protocol := ⟨envelopes⟩
  match envelopes with
  | [] => .error .noEnvelopes
  | _ :: _ =>
    match checkMagics p.magicSize [] envelopes with
    | .error fault => .error fault
    | .ok () => p.verify.map fun () => p

/-- The place of the envelope with a magic. -/
def find? (p : Protocol) (magic : Bytes) : Option Nat :=
  p.envelopes.findIdx? fun e => e.header.magic = magic

/-- The bytes sent on the coming turn. -/
def emit (p : Protocol) (cells : Cells) : Bytes := p.envelopes.flatMap fun e => e.emit cells

/-- The protocol after its turn. -/
def advance (p : Protocol) : Protocol := ⟨p.envelopes.map Envelope.advance⟩

/-- Eats one envelope from the front of the input and stages its values. A fault may
leave some values staged, but nothing is consumed. -/
def eat (p : Protocol) (input : Bytes) : Protocol × Except WireFault Eaten :=
  if input.shorterThan p.magicSize then (p, .error (.insufficient p.magicSize input.length))
  else
    match p.find? (input.take p.magicSize) with
    | none => (p, .error .unknownMagic)
    | some i =>
      match p.envelopes[i]? with
      | none => (p, .error .unknownMagic)
      | some e =>
        let decoded := e.packet.decode input
        (⟨p.envelopes.set i (e.stage decoded.staged)⟩,
          decoded.outcome.map fun consumed => ⟨i, consumed⟩)

/-- Delivers the staged values of one envelope. -/
def deliver (p : Protocol) (envelope : Nat) (cells : Cells) : Cells :=
  match p.envelopes[envelope]? with
  | some e => e.deliver cells
  | none => cells

/-- Clears the cells of all envelopes that are not retained. -/
def failsafe (p : Protocol) (cells : Cells) : Cells :=
  p.envelopes.foldl (fun cells e => e.failsafe cells) cells

end Protocol

end DataLink
