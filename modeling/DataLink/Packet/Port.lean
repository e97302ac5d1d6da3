import DataLink.Packet

/-!
# Ports

A port is any packet with the values staged for its leaves, used on its own.
-/

namespace DataLink

/-- A packet with the values staged for its leaves. -/
structure Port where
  packet : Packet
  staged : Staged

namespace Port

/-- A port with nothing staged. -/
def ofPacket (packet : Packet) : Port := ⟨packet, .empty packet.leaves⟩

/-- The bytes sent for the cells' values. -/
def emit (p : Port) (cells : Cells) : Bytes := p.packet.emit cells

/-- The port after one emission. -/
def advance (p : Port) : Port := { p with packet := p.packet.advance }

/-- Eats from the front of the input and stages the values, those before a fault too. -/
def eat (p : Port) (input : Bytes) : Port × Except WireFault Nat :=
  let decoded := p.packet.decode input
  ({ p with staged := p.staged.overlay decoded.staged }, decoded.outcome)

/-- Delivers the staged values. -/
def deliver (p : Port) (cells : Cells) : Cells :=
  Staged.deliver p.packet.leaves p.staged cells

/-- Clears the cells that are not retained. -/
def failsafe (p : Port) (cells : Cells) : Cells := Staged.failsafe p.packet.leaves cells

end Port

end DataLink
