import DataLink.Link.Interference
import DataLink.Link.Settings
import DataLink.Protocol

/-!
# Links

A link runs a protocol over a stream of bytes. Input is fed at any time and eaten once a
cycle; then three timers are looked at. Time is an argument of every cycle and is never
read from a clock. The cells belong to the surroundings and pass through each cycle.
-/

namespace DataLink

/-- What happened in a cycle. -/
inductive LinkEvent where
  /-- A valid envelope arrived while the link was invalid. -/
  | acquired
  /-- No valid envelope arrived for too long. -/
  | failsafe
  /-- Buffered input was dropped after sustained garbage. -/
  | reacquired (discarded : Nat)
  /-- The output timer fired. -/
  | sent (bytes : Nat)
  deriving DecidableEq, Repr

/-- Counters of a link's health. They are unbounded, and agree with counters of 64 bits as long as
fewer than `2 ^ 64` bytes have arrived and there were fewer than `2 ^ 64` cycles. -/
structure LinkStats where
  failsafes : Nat
  reacquires : Nat
  /-- Bytes dropped while looking for an envelope. -/
  errorBytes : Nat
  /-- Bytes of accepted envelopes. -/
  validBytes : Nat
  /-- Accepted envelopes. -/
  validEnvelopes : Nat
  deriving DecidableEq, Repr

/-- The state of a link. -/
structure Link where
  protocol : Protocol
  settings : Settings
  /-- Input that is not yet eaten. -/
  input : Bytes
  /-- Whether an envelope was accepted since the last failsafe. -/
  isValid : Bool
  stats : LinkStats
  /-- The time of the first cycle. -/
  startedAt : Option Duration
  /-- When output is due. -/
  nextOutputAt : Option Duration
  /-- When an envelope was last accepted. -/
  lastValidAt : Option Duration
  /-- Whether failsafe was reported for the present silence. -/
  failsafeActive : Bool
  /-- When the present run of garbage started. -/
  garbageSince : Option Duration
  inputNoise : Option Interference
  outputNoise : Option Interference

/-- What a cycle leaves behind. -/
structure CycleResult where
  link : Link
  cells : Cells
  events : List LinkEvent
  /-- The output, if the timer fired. -/
  output : Option Bytes

namespace Link

/-- A source of interference, unless its probability is zero. -/
def noise? (probability : Binary64) (seed : Option UInt64) (unseeded : Keystream) :
    Option Interference :=
  if Binary64.zero.lt probability then some (.start probability seed unseeded) else none

/-- Checks the protocol and the settings. -/
def verify (protocol : Protocol) (settings : Settings) : Except LinkFault Unit :=
  match protocol.verify with
  | .error fault => .error (.config fault)
  | .ok () => settings.validate

/-- A link before its first cycle, if protocol and settings are valid. If the settings have a seed,
interference with input starts from it, and interference with output from its complement. -/
def new (protocol : Protocol) (settings : Settings) (entropy : Entropy) : Except LinkFault Link :=
  let seed := settings.interferenceSeed
  (verify protocol settings).map fun () =>
    { protocol, settings
      input := []
      isValid := false
      stats := ⟨0, 0, 0, 0, 0⟩
      startedAt := none
      nextOutputAt := none
      lastValidAt := none
      failsafeActive := false
      garbageSince := none
      inputNoise := noise? settings.inputInterference seed entropy.input
      outputNoise :=
        noise? settings.outputInterference (seed.map fun s => ~~~s) entropy.output }

/-- Appends newly arrived bytes, perhaps spoiled, to the input. -/
def feed (link : Link) (bytes : Bytes) : Link :=
  match link.inputNoise with
  | none => { link with input := link.input ++ bytes }
  | some noise =>
    let d := noise.disturb bytes
    { link with input := link.input ++ d.bytes, inputNoise := some d.next }

/-- Drops all buffered input. -/
def discardInput (link : Link) : Link := { link with input := [] }

/-- Bytes waiting for the rest of an envelope. -/
def buffered (link : Link) : Nat := link.input.length

/-- Notes an accepted envelope. -/
def accept (link : Link) (now : Duration) (consumed : Nat) : Link :=
  { link with
    input := link.input.drop consumed
    isValid := true
    stats :=
      { link.stats with
        validBytes := link.stats.validBytes + consumed
        validEnvelopes := link.stats.validEnvelopes + 1 }
    lastValidAt := some now
    failsafeActive := false
    garbageSince := none }

/-- Drops one byte of garbage. -/
def reject (link : Link) (now : Duration) : Link :=
  { link with
    input := link.input.drop 1
    stats := { link.stats with errorBytes := link.stats.errorBytes + 1 }
    garbageSince := some (link.garbageSince.getD now) }

/-- Eats envelopes from the front of the input until more input is needed. Bytes that
start no envelope are dropped one at a time. The first argument bounds the steps. -/
def eatSteps (now : Duration) : Nat → Link → Cells → List LinkEvent →
    Link × Cells × List LinkEvent
  | 0, link, cells, events => (link, cells, events)
  | steps + 1, link, cells, events =>
    if link.input = [] then (link, cells, events)
    else
      let (protocol, outcome) := link.protocol.eat link.input
      let link := { link with protocol }
      match outcome with
      | .ok eaten =>
        eatSteps now steps (link.accept now eaten.consumed) (protocol.deliver eaten.envelope cells)
          (if link.isValid then events else events ++ [.acquired])
      | .error (.insufficient _ _) => (link, cells, events)
      | .error _ => eatSteps now steps (link.reject now) cells events

/-- Eats what can be eaten. Every step takes at least one byte. -/
def eatInput (link : Link) (cells : Cells) (now : Duration) : Link × Cells × List LinkEvent :=
  eatSteps now link.input.length link cells []

/-- Whether garbage has lasted for too long. -/
def reacquireDue (link : Link) (now : Duration) : Bool :=
  match link.settings.reacquireAfter, link.garbageSince with
  | some after, some since => after < now.since since
  | _, _ => false

/-- Drops all input if garbage has lasted for too long. -/
def checkReacquire (link : Link) (now : Duration) : Link × List LinkEvent :=
  if link.reacquireDue now then
    ({ link with
        input := []
        stats := { link.stats with reacquires := link.stats.reacquires + 1 }
        garbageSince := none },
      [.reacquired link.input.length])
  else (link, [])

/-- Whether silence has lasted for too long, and this is not yet reported. -/
def failsafeDue (link : Link) (now startedAt : Duration) : Bool :=
  match link.settings.failsafeAfter with
  | some after => !link.failsafeActive && after < now.since (link.lastValidAt.getD startedAt)
  | none => false

/-- Clears the cells if silence has lasted for too long. -/
def checkFailsafe (link : Link) (cells : Cells) (now startedAt : Duration) :
    Link × Cells × List LinkEvent :=
  if link.failsafeDue now startedAt then
    ({ link with
        isValid := false
        failsafeActive := true
        stats := { link.stats with failsafes := link.stats.failsafes + 1 } },
      link.protocol.failsafe cells, [.failsafe])
  else (link, cells, [])

/-- When output is due next, after it was due and sent. There is no burst to catch up. -/
def followingOutput? (period due now : Duration) : Option Duration :=
  match due.add? period with
  | none => none
  | some next => if next ≤ now then now.add? period else some next

/-- Spoils an output, perhaps. -/
def disturbOutput (link : Link) (blob : Bytes) : Bytes × Option Interference :=
  match link.outputNoise with
  | none => (blob, none)
  | some noise =>
    let d := noise.disturb blob
    (d.bytes, some d.next)

/-- Emits output if it is due. No value means that the next time is not representable. -/
def sendOutput (link : Link) (cells : Cells) (now : Duration) :
    Option (Link × List LinkEvent × Option Bytes) :=
  match link.settings.sendPeriod, link.nextOutputAt with
  | some period, some due =>
    if now < due then some (link, [], none)
    else
      let (blob, outputNoise) := link.disturbOutput (link.protocol.emit cells)
      (followingOutput? period due now).map fun next =>
        ({ link with protocol := link.protocol.advance, outputNoise, nextOutputAt := some next },
          [.sent blob.length], some blob)
  | _, _ => some (link, [], none)

/-- Starts the timers on the first cycle. No value means that the first time for output is
not representable. -/
def start? (link : Link) (now : Duration) : Option (Link × Duration) :=
  let startedAt := link.startedAt.getD now
  let link := { link with startedAt := some startedAt }
  match link.nextOutputAt, link.settings.sendPeriod with
  | none, some period =>
    (startedAt.add? period).map fun due => ({ link with nextOutputAt := some due }, startedAt)
  | _, _ => some (link, startedAt)

/-- Runs one cycle: eats input, then looks at the timers for garbage, silence and output.
No value means that a time is not representable. -/
def process (link : Link) (cells : Cells) (now : Duration) : Option CycleResult :=
  match link.start? now with
  | none => none
  | some (link, startedAt) =>
    let (link, cells, eaten) := link.eatInput cells now
    let (link, reacquired) := link.checkReacquire now
    let (link, cells, failed) := link.checkFailsafe cells now startedAt
    (link.sendOutput cells now).map fun (link, sent, output) =>
      ⟨link, cells, eaten ++ reacquired ++ failed ++ sent, output⟩

end Link

end DataLink
