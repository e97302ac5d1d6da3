import DataLink.Link

/-!
# Nodes

A node is a link together with its cells and with the sink that takes its output. Output
is handed over without waiting: what a sink does with it never comes back to the link.
-/

namespace DataLink

/-- Something that output is written to. -/
class Sink (W : Type) where
  /-- Offers bytes; answers how many were taken, or nothing on failure. -/
  write : W → Bytes → W × Option Nat
  /-- Passes on what was taken. -/
  flush : W → W

namespace Sink

variable {W : Type} [Sink W]

/-- Offers bytes again and again until all are taken, one call fails, or nothing is taken. -/
def writeSteps : Nat → W → Bytes → W × Bool
  | 0, sink, bytes => (sink, bytes = [])
  | steps + 1, sink, bytes =>
    if bytes = [] then (sink, true)
    else
      match write sink bytes with
      | (sink, some (n + 1)) => writeSteps steps sink (bytes.drop (n + 1))
      | (sink, _) => (sink, false)

/-- Hands over an output. An empty one is not written at all. -/
def handOver (sink : W) (blob : Bytes) : W :=
  if blob = [] then sink
  else
    match writeSteps blob.length sink blob with
    | (sink, true) => flush sink
    | (sink, false) => sink

end Sink

/-- A sink that forgets everything. -/
instance : Sink Unit where
  write := fun _ bytes => ((), some bytes.length)
  flush := id

/-- A sink that collects everything. -/
instance : Sink Bytes where
  write := fun kept bytes => (kept ++ bytes, some bytes.length)
  flush := id

/-- A link with its cells and its sink. -/
structure Node (W : Type) where
  link : Link
  cells : Cells
  sink : W

namespace Node

variable {W : Type} [Sink W]

/-- Runs one cycle and hands its output over. No value means that a time is not
representable. -/
def process (node : Node W) (now : Duration) : Option (Node W × List LinkEvent) :=
  (node.link.process node.cells now).map fun r =>
    ({ link := r.link
       cells := r.cells
       sink := match r.output with
         | some blob => Sink.handOver node.sink blob
         | none => node.sink },
      r.events)

/-- Appends newly arrived bytes to the input. -/
def feed (node : Node W) (bytes : Bytes) : Node W := { node with link := node.link.feed bytes }

end Node

end DataLink
