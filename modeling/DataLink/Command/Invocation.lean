import DataLink.Command.Arguments
import DataLink.Number.Reader

/-!
# Invocations

What the arguments of the program ask for.
-/

namespace DataLink

namespace Command

/-- How results are written. -/
inductive OutputFormat where
  | json
  | table
  | pretty
  | raw
  deriving DecidableEq, Repr

/-- The format with a name. -/
def OutputFormat.ofName? : String → Option OutputFormat
  | "json" => some .json
  | "table" => some .table
  | "pretty" => some .pretty
  | "raw" => some .raw
  | _ => none

/-- What a layout is encoded with. -/
structure EncodeArguments where
  layout : String
  assignments : List String
  ticks : Nat
  seed : Option UInt64
  deriving DecidableEq, Repr

/-- What a simulation runs with. -/
structure SimulateArguments where
  layout : String
  ticks : Nat
  tickMillis : Nat
  interference : Binary64
  seed : Option UInt64
  assignments : List String
  deriving DecidableEq, Repr

/-- What to do. -/
inductive Task where
  /-- Describe the envelopes and cells of a layout. -/
  | inspect (layout : String)
  /-- Produce wire bytes from cell values. -/
  | encode (arguments : EncodeArguments)
  /-- Feed wire bytes to a receiving link and show the cells. -/
  | decode (layout hex : String)
  /-- Run two links over a channel in memory. -/
  | simulate (arguments : SimulateArguments)
  | version
  deriving DecidableEq, Repr

/-- A task and the format of its result. -/
structure Invocation where
  task : Task
  format : OutputFormat
  deriving DecidableEq, Repr

/-- The layout file that a task reads. -/
def Task.layout? : Task → Option String
  | .inspect layout => some layout
  | .encode a => some a.layout
  | .decode layout _ => some layout
  | .simulate a => some a.layout
  | .version => none

/-- Options as far as they were given. -/
structure Draft where
  format : Option OutputFormat
  assignments : List String
  ticks : Option Nat
  tickMillis : Option Nat
  interference : Option Binary64
  seed : Option UInt64
  hex : Option String
  version : Bool

/-- No option given. -/
def Draft.empty : Draft := ⟨none, [], none, none, none, none, none, false⟩

namespace Draft

/-- An option that takes one value. -/
def once (name : String) (store : Draft → String → Option Draft) : OptionSpec Draft :=
  ⟨name, false, true, false, store⟩

/-- Options that every command takes. The log options are checked and not used here. -/
def common : List (OptionSpec Draft) :=
  [once "--format" fun d value =>
      (OutputFormat.ofName? value).map fun format => { d with format := some format },
    once "--log-format" fun d value => if value ∈ ["text", "json"] then some d else none,
    once "--log-level" fun d value =>
      if value ∈ ["error", "warn", "info", "debug", "trace"] then some d else none]

/-- The number of cycles to run. -/
def ticksOption : OptionSpec Draft :=
  once "--ticks" fun d value =>
    (readUnsigned? value.toList).map fun n => { d with ticks := some n.toNat }

/-- The length of a cycle. -/
def tickMillisOption : OptionSpec Draft :=
  once "--tick-ms" fun d value =>
    (readUnsigned? value.toList).map fun n => { d with tickMillis := some n.toNat }

/-- The probability of interference. -/
def interferenceOption : OptionSpec Draft :=
  once "--interference" fun d value =>
    (readBinary64? value.toList).map fun x => { d with interference := some x }

/-- The seed of nonces and interference. -/
def seedOption : OptionSpec Draft :=
  once "--seed" fun d value =>
    (readUnsigned? value.toList).map fun n => { d with seed := some n }

/-- Wire bytes. -/
def hexOption : OptionSpec Draft := once "--hex" fun d value => some { d with hex := some value }

/-- Asks for the version. -/
def versionOption (name : String) : OptionSpec Draft :=
  ⟨name, false, false, true, fun d _ => some { d with version := true }⟩

/-- A cell assignment. -/
def setOption : OptionSpec Draft :=
  ⟨"--set", true, true, false, fun d value => some { d with assignments := d.assignments ++ [value] }⟩

end Draft

open Draft

/-- The name of the program and its version. -/
def versionText : String := "linkprims 0.2.1"

/-- Reads the arguments of one command: its options and the path of a layout, which must
not be empty. -/
def layoutArguments (own : List (OptionSpec Draft)) (arguments : List String) :
    Option (Draft × String) :=
  match optionsAndWords (common ++ own) 1 (arguments.length + 1) ⟨.empty, []⟩ [] arguments with
  | some (d, [path]) => if path = "" then none else some (d, path)
  | _ => none

/-- Reads the arguments of a command by its name. -/
def task? (name : String) (arguments : List String) : Option (Draft × Task) :=
  match name with
  | "inspect" => (layoutArguments [] arguments).map fun (d, layout) => (d, .inspect layout)
  | "encode" =>
    (layoutArguments [setOption, ticksOption, seedOption] arguments).map fun (d, layout) =>
      (d, .encode ⟨layout, d.assignments, d.ticks.getD 1, d.seed⟩)
  | "decode" =>
    match layoutArguments [hexOption] arguments with
    | some (d, layout) => d.hex.map fun hex => (d, .decode layout hex)
    | none => none
  | "simulate" =>
    let own := [ticksOption, tickMillisOption, interferenceOption, seedOption, setOption]
    (layoutArguments own arguments).map fun (d, layout) =>
      (d, .simulate ⟨layout, d.ticks.getD 100, d.tickMillis.getD 10,
        d.interference.getD .zero, d.seed, d.assignments⟩)
  | "version" =>
    (optionsAndWords common 0 (arguments.length + 1) ⟨.empty, []⟩ [] arguments).map
      fun (d, _) => (d, .version)
  | _ => none

/-- Reads all arguments of the program. Options that every command takes may stand before
and after its name; those after it win. No value means that the arguments are refused. -/
def Invocation.ofArguments? (arguments : List String) : Option Invocation :=
  let leading := common ++ [versionOption "--version", versionOption "-V"]
  match leadingOptions leading (arguments.length + 1) ⟨.empty, []⟩ arguments with
  | some (d, name :: rest) =>
    (task? name rest).map fun (own, task) => ⟨task, (own.format.or d.format).getD .json⟩
  | some (d, []) => if d.version then some ⟨.version, .json⟩ else none
  | none => none

end Command

end DataLink
