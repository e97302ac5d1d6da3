import DataLink.Command.Run

/-!
# The program

Reads the layout file that the arguments name, runs the task, and prints its outcome.
-/

namespace DataLink

/-- What stands at a path. Faults that name no path arise from reading what was opened. -/
def fileState (path : String) : IO Layout.FileState := do
  try
    let content ← IO.FS.readBinFile path
    return .file content.size content
  catch fault =>
    match fault with
    | .noFileOrDirectory .. => return .unopened .missing
    | .inappropriateType (some _) .. => return .unopened .notDirectory
    | .invalidArgument .. => return .unopened .nameTooLong
    | .permissionDenied .. => return .unopened .denied
    | _ => return .notRegular

/-- Generators that start from the system's own randomness. -/
def drawEntropy : IO Entropy := do
  let key ← IO.getRandomBytes 32
  let words := (List.range 8).map fun i => wordOfBytes (key.toList.drop (4 * i))
  return .ofStream (.ofKey words)

/-- Runs the program on its arguments and prints the outcome. -/
def runProgram (arguments : List String) : IO UInt32 := do
  let entropies : Entropies := ⟨← drawEntropy, ← drawEntropy⟩
  match Command.Invocation.ofArguments? arguments with
  | none =>
    IO.eprintln "error: invalid arguments"
    return UInt32.ofNat Command.Outcome.refusedCode
  | some i =>
    let file ← match i.task.layout? with
      | some path => fileState path
      | none => pure (.unopened .missing)
    let outcome := i.run file entropies
    match outcome.output with
    | .text s => IO.print s
    | .raw bytes => (← IO.getStdout).write ⟨bytes.toArray⟩
    if outcome.error ≠ "" then IO.eprintln ("error: " ++ outcome.error)
    return UInt32.ofNat outcome.code

end DataLink

/-- The program. -/
def main (arguments : List String) : IO UInt32 := DataLink.runProgram arguments
