import DataLink.Link
import DataLink.Proofs.Eating

/-!
# The log of a run

What the surroundings do with a link, and what an observer could have seen of it.
-/

namespace DataLink

/-- What the surroundings do with a link. -/
inductive Action where
  | feed (bytes : Bytes)
  | discard
  | assign (write : Assignment)
  | cycle (now : Duration)
  deriving DecidableEq, Repr

/-- What happened in one cycle of a run. -/
structure CycleLog where
  now : Duration
  /-- How the buffered input was eaten. -/
  bites : List Bite
  /-- What the link assigned to cells, in order. -/
  writes : List Assignment
  events : List LinkEvent
  output : Option Bytes
  deriving DecidableEq, Repr

/-- What happened on one action. -/
inductive Entry where
  /-- Bytes were put into the buffer, perhaps spoiled on the way. -/
  | arrived (bytes : Bytes)
  | discarded (count : Nat)
  /-- The surroundings assigned a cell. -/
  | assigned (write : Assignment)
  | cycled (cycle : CycleLog)
  deriving DecidableEq, Repr

/-- What happened in a run. -/
abbrev Log := List Entry

namespace Entry

/-- The bytes put into the buffer. -/
@[simp] def stream : Entry → Bytes
  | .arrived bytes => bytes
  | _ => []

/-- The cycle, if there was one. -/
@[simp] def cycle? : Entry → Option CycleLog
  | .cycled cycle => some cycle
  | _ => none

/-- How buffered input was eaten. -/
@[simp] def bites : Entry → List Bite
  | .cycled cycle => cycle.bites
  | _ => []

/-- What the link reported. -/
@[simp] def events : Entry → List LinkEvent
  | .cycled cycle => cycle.events
  | _ => []

/-- What the link assigned to cells. -/
@[simp] def linkWrites : Entry → List Assignment
  | .cycled cycle => cycle.writes
  | _ => []

/-- All assignments to cells, those of the link and those of its surroundings. -/
@[simp] def writes : Entry → List Assignment
  | .assigned write => [write]
  | .cycled cycle => cycle.writes
  | _ => []

end Entry

namespace Log

/-- All bytes put into the buffer. -/
def stream (log : Log) : Bytes := log.flatMap Entry.stream

/-- The cycles in order. -/
def cycles (log : Log) : List CycleLog := log.filterMap Entry.cycle?

/-- The bites of all cycles. -/
def bites (log : Log) : List Bite := log.flatMap Entry.bites

/-- The accepted envelopes in order. -/
def accepted (log : Log) : List Eaten := Bite.accepted log.bites

/-- The events of all cycles. -/
def events (log : Log) : List LinkEvent := log.flatMap Entry.events

/-- What the link itself assigned to cells, in order. -/
def linkWrites (log : Log) : List Assignment := log.flatMap Entry.linkWrites

/-- All assignments to cells, in order. -/
def writes (log : Log) : List Assignment := log.flatMap Entry.writes

/-- One more entry adds the bytes that arrive in it. -/
@[simp] theorem stream_concat (log : Log) (e : Entry) :
    stream (log ++ [e]) = log.stream ++ e.stream := by simp [stream]

/-- One more entry adds its cycle, if it is one. -/
@[simp] theorem cycles_concat (log : Log) (e : Entry) :
    cycles (log ++ [e]) = log.cycles ++ e.cycle?.toList := by
  cases e <;> simp [cycles]

/-- One more entry adds the bites it takes. -/
@[simp] theorem bites_concat (log : Log) (e : Entry) :
    bites (log ++ [e]) = log.bites ++ e.bites := by simp [bites]

/-- One more entry adds the envelopes that it accepts. -/
@[simp] theorem accepted_concat (log : Log) (e : Entry) :
    accepted (log ++ [e]) = log.accepted ++ Bite.accepted e.bites := by simp [accepted]

/-- One more entry adds the events that it reports. -/
@[simp] theorem events_concat (log : Log) (e : Entry) :
    events (log ++ [e]) = log.events ++ e.events := by simp [events]

/-- One more entry adds what the link assigns in it. -/
@[simp] theorem linkWrites_concat (log : Log) (e : Entry) :
    linkWrites (log ++ [e]) = log.linkWrites ++ e.linkWrites := by simp [linkWrites]

/-- One more entry adds what it assigns. -/
@[simp] theorem writes_concat (log : Log) (e : Entry) :
    writes (log ++ [e]) = log.writes ++ e.writes := by simp [writes]

/-- The link assigns cells in cycles only. -/
theorem linkWrites_eq (log : Log) : log.linkWrites = log.cycles.flatMap CycleLog.writes := by
  induction log with
  | nil => rfl
  | cons e log ih =>
    simp only [linkWrites, cycles, List.flatMap_cons, List.filterMap_cons] at ih ⊢
    cases e <;> simp [ih]

end Log

end DataLink
