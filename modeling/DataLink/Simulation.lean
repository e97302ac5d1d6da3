import DataLink.Layout.Builder
import DataLink.Link.Node

/-!
# Simulated channels

A transmitter and a receiver of one layout, joined by a channel that delivers at once.
Each tick both run a cycle at the same time, first the transmitter.
-/

namespace DataLink

/-- Events of both sides, counted. The counts are unbounded, and agree with counters of 64 bits as
long as fewer than `2 ^ 64` bytes were sent and there were fewer than `2 ^ 64` ticks. -/
structure EventCounts where
  sends : Nat
  sentBytes : Nat
  acquired : Nat
  failsafes : Nat
  reacquires : Nat
  deriving DecidableEq, Repr

namespace EventCounts

/-- Nothing happened yet. -/
def zero : EventCounts := ⟨0, 0, 0, 0, 0⟩

/-- Counts an event of the transmitter; only its output matters. -/
def addTransmitted (c : EventCounts) : LinkEvent → EventCounts
  | .sent bytes => { c with sends := c.sends + 1, sentBytes := c.sentBytes + bytes }
  | _ => c

/-- Counts an event of the receiver. -/
def addReceived (c : EventCounts) : LinkEvent → EventCounts
  | .acquired => { c with acquired := c.acquired + 1 }
  | .failsafe => { c with failsafes := c.failsafes + 1 }
  | .reacquired _ => { c with reacquires := c.reacquires + 1 }
  | .sent _ => c

end EventCounts

/-- Generators for what is not seeded, of both sides. -/
structure Entropies where
  transmitter : Entropy
  receiver : Entropy

/-- A number stands for the generators that it and the next one determine. -/
instance (n : Nat) : OfNat Entropies n :=
  ⟨⟨.ofStream (.ofSeed (UInt64.ofNat n)), .ofStream (.ofSeed (UInt64.ofNat (n + 1)))⟩⟩

/-- Two links and the channel between them. -/
structure Simulation where
  transmitter : Node Bytes
  receiver : Node Unit
  counts : EventCounts
  cycle : Cycle

/-- Which side of a simulation cannot be set up. -/
inductive SetupFault where
  | transmitter (fault : LayoutFault)
  | receiver (fault : LayoutFault)

namespace Simulation

/-- The transmitter's settings: it sends once a tick unless the layout says otherwise, its
output meets the interference of the channel, and its input none. -/
def transmitterSettings (s : Settings) (tickMillis : Nat) (interference : Binary64)
    (seed : Option UInt64) : Settings :=
  { s with
    sendFrequency := s.sendFrequency.or
      (some ((Binary64.ofNat 1000).div (.ofNat tickMillis)))
    inputInterference := .zero
    outputInterference := interference
    interferenceSeed := seed.or s.interferenceSeed }

/-- The receiver's settings: it sends nothing. -/
def receiverSettings (s : Settings) : Settings :=
  { s with
    sendFrequency := none
    inputInterference := .zero
    outputInterference := .zero }

/-- A simulation before its first tick. -/
def new (transmitter receiver : Layout) (entropies : Entropies) : Except SetupFault Simulation :=
  match transmitter.link entropies.transmitter, receiver.link entropies.receiver with
  | .error fault, _ => .error (.transmitter fault)
  | .ok _, .error fault => .error (.receiver fault)
  | .ok tx, .ok rx =>
    .ok
      { transmitter := ⟨tx, transmitter.cells, []⟩
        receiver := ⟨rx, receiver.cells, ()⟩
        counts := .zero
        cycle := .first .zero }

/-- One tick. No value means that a time is not representable. -/
def tick? (s : Simulation) (length : Duration) : Option Simulation :=
  match s.transmitter.process s.cycle.time with
  | none => none
  | some (transmitter, transmitted) =>
    match (s.receiver.feed transmitter.sink).process s.cycle.time with
    | none => none
    | some (receiver, received) =>
      (s.cycle.next? length).map fun cycle =>
        { transmitter := { transmitter with sink := [] }
          receiver
          counts := received.foldl EventCounts.addReceived
            (transmitted.foldl EventCounts.addTransmitted s.counts)
          cycle }

/-- A number of ticks. -/
def run? (length : Duration) : Nat → Simulation → Option Simulation
  | 0, s => some s
  | ticks + 1, s =>
    match s.tick? length with
    | some s => run? length ticks s
    | none => none

end Simulation

end DataLink
