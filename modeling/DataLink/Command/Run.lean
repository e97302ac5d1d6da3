import DataLink.Command.Report

/-!
# Running tasks

A task is a function of its arguments and of what stands at the path of its layout. Faults
are looked for in a fixed order: first in the arguments, then in the layout, then in the
assignments, then in the links' settings.
-/

namespace DataLink

namespace Command

/-- Loads the layout of a task. -/
def loadLayout (options : Layout.Options) (path : String) (file : Layout.FileState) :
    Except Outcome Layout :=
  (Layout.load options path file).mapError (.ofFault ("layout " ++ path))

/-- Assigns cells in order, up to the first fault. -/
def assignAll (cells : Cells) : List String → Except Outcome Cells
  | [] => .ok cells
  | assignment :: rest =>
    match cells.assign assignment with
    | .ok cells => assignAll cells rest
    | .error fault =>
      .error (.failed Outcome.usage ("--set " ++ assignment ++ ": " ++ fault.message))

/-- The blobs of the next turns. -/
def emitTurns (cells : Cells) : Nat → List Bytes → Protocol → List Bytes
  | 0, blobs, _ => blobs.reverse
  | turns + 1, blobs, p => emitTurns cells turns (p.emit cells :: blobs) p.advance

/-- Produces the blobs of a transmitter. -/
def encode (a : EncodeArguments) (file : Layout.FileState) (entropy : Entropy) :
    Except Outcome (List Bytes) := do
  if a.ticks = 0 then
    throw (.failed Outcome.usage "--ticks must be greater than zero")
  let options := { Layout.Options.default with readOnly := true, seed := a.seed, entropy }
  let l ← loadLayout options a.layout file
  let cells ← assignAll l.cells a.assignments
  return emitTurns cells a.ticks [] l.protocol

/-- Feeds bytes to a receiver, which then runs one cycle at time zero. -/
def decode (path hex : String) (file : Layout.FileState) (entropy : Entropy) :
    Except Outcome CycleResult := do
  let input ← (readHex hex).mapError fun fault =>
    .failed Outcome.usage ("--hex: " ++ fault.message)
  let l ← loadLayout { Layout.Options.default with entropy } path file
  let link ← (l.link entropy).mapError (.ofFault "link setup")
  match (link.feed input).process l.cells .zero with
  | some result => return result
  | none => throw (.failed Outcome.timeOverflow "")

/-- The outcome of a setup that failed. -/
def setupFailed : SetupFault → Outcome
  | .transmitter fault => .ofFault "transmitter setup" fault
  | .receiver fault => .ofFault "receiver setup" fault

/-- Sets up a simulation. -/
def setup (a : SimulateArguments) (file : Layout.FileState) (entropies : Entropies) :
    Except Outcome Simulation := do
  if a.ticks = 0 ∨ a.tickMillis = 0 then
    throw (.failed Outcome.usage "--ticks and --tick-ms must be greater than zero")
  if !a.interference.isProbability then
    throw (.failed Outcome.usage
      ("--interference " ++ a.interference.text .plain ++ " outside 0..=1"))
  let options :=
    { Layout.Options.default with
      readOnly := true, seed := a.seed, entropy := entropies.transmitter }
  let tx ← loadLayout options a.layout file
  let cells ← assignAll tx.cells a.assignments
  let rx ← loadLayout { Layout.Options.default with entropy := entropies.receiver } a.layout file
  let transmitter :=
    { tx with
      cells
      settings :=
        Simulation.transmitterSettings tx.settings a.tickMillis a.interference a.seed }
  let receiver := { rx with settings := Simulation.receiverSettings rx.settings }
  (Simulation.new transmitter receiver entropies).mapError setupFailed

/-- Runs a simulation. -/
def simulate (a : SimulateArguments) (file : Layout.FileState) (entropies : Entropies) :
    Except Outcome Simulation := do
  let s ← setup a file entropies
  match s.run? (.ofMillis a.tickMillis) a.ticks with
  | some s => return s
  | none => throw (.failed Outcome.timeOverflow "")

/-- The outcome of a computation that may end early. -/
def finish (r : Except Outcome Outcome) : Outcome :=
  match r with
  | .ok outcome => outcome
  | .error outcome => outcome

/-- Runs an invocation. Blobs are produced as by the transmitter, bytes are read as by the
receiver. -/
def Invocation.run (i : Invocation) (file : Layout.FileState) (entropies : Entropies) : Outcome :=
  match i.task with
  | .version => .ofText (versionText ++ "\n")
  | .inspect path =>
    let options := { Layout.Options.default with entropy := entropies.receiver }
    finish ((loadLayout options path file).map fun l =>
      .ofText (describe i.format l))
  | .encode a =>
    finish ((encode a file entropies.transmitter).map fun blobs =>
      ⟨Outcome.success, blobsReport i.format blobs, ""⟩)
  | .decode path hex =>
    finish ((decode path hex file entropies.receiver).map fun r =>
      let code := if r.link.stats.validEnvelopes = 0 then Outcome.dataInvalid else Outcome.success
      ⟨code, .text (decodedReport i.format r.link r.cells), ""⟩)
  | .simulate a =>
    finish ((simulate a file entropies).map fun s =>
      .ofText (simulationReport i.format a.ticks s))

/-- Runs the program on its arguments, given how to look up a file. -/
def run (arguments : List String) (lookup : String → Layout.FileState) (entropies : Entropies) :
    Outcome :=
  match Invocation.ofArguments? arguments with
  | none => .refused
  | some i =>
    i.run ((i.task.layout?.map lookup).getD (.unopened .missing)) entropies

end Command

end DataLink
