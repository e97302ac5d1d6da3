import DataLink.Command.Invocation
import DataLink.Layout.Builder
import DataLink.Simulation
import DataLink.Text.Table

/-!
# Reports

What a task prints, and with which code it ends. Each result has one line of JSON, whose
members stand in a fixed order, one or more tables, and a text for readers.
-/

namespace DataLink

namespace Command

/-- What a task prints: text, or wire bytes as they are. -/
inductive Output where
  | text (s : String)
  | raw (bytes : Bytes)
  deriving DecidableEq, Repr

/-- The end of a run: exit code, output, and the error that was reported. -/
structure Outcome where
  code : Nat
  output : Output
  error : String
  deriving DecidableEq, Repr

namespace Outcome

/-- Exit code of a run that went well. -/
def success : Nat := 0

/-- Exit code when a file cannot be loaded. -/
def loadFailed : Nat := 1

/-- Exit code when the arguments are refused. -/
def refusedCode : Nat := 2

/-- Exit code when a layout or wire data is invalid. -/
def dataInvalid : Nat := 60

/-- Exit code when a value among the arguments is invalid. -/
def usage : Nat := 64

/-- Exit code when a time is not representable. -/
def timeOverflow : Nat := 101

/-- A result. -/
def ofText (s : String) : Outcome := ⟨success, .text s, ""⟩

/-- An error, before anything was printed. -/
def failed (code : Nat) (message : String) : Outcome := ⟨code, .text "", message⟩

/-- The arguments are refused. -/
def refused : Outcome := failed refusedCode ""

/-- The exit code of a layout fault. -/
def codeOf : LayoutFault → Nat
  | .load _ => loadFailed
  | .cell (.badValue ..) => usage
  | _ => dataInvalid

/-- A layout fault in its context. -/
def ofFault (context : String) (fault : LayoutFault) : Outcome :=
  failed (codeOf fault) (context ++ ": " ++ fault.message)

end Outcome

/-- A number in a report. -/
def number (n : Nat) : Json := .ofNat n

/-- A document that names its schema, on one line. -/
def document (schema : String) (members : List (String × Json)) : String :=
  let id := "https://schemas.3leaps.dev/linkprims/cli/v1/" ++ schema ++ ".schema.json"
  (Json.object (("schema_id", .text id) :: members)).render ++ "\n"

/-- Counters as a document. -/
def statsJson (s : LinkStats) : Json :=
  .object
    [("failsafes", number s.failsafes), ("reacquires", number s.reacquires),
      ("error_bytes", number s.errorBytes), ("valid_bytes", number s.validBytes),
      ("valid_envelopes", number s.validEnvelopes)]

/-- Counters as a table. -/
def statsTable (s : LinkStats) : Table :=
  ⟨["COUNTER", "VALUE"],
    [["valid_envelopes", toString s.validEnvelopes], ["valid_bytes", toString s.validBytes],
      ["error_bytes", toString s.errorBytes], ["reacquires", toString s.reacquires],
      ["failsafes", toString s.failsafes]]⟩

/-- Counters on one line. -/
def statsLine (s : LinkStats) : String :=
  "  envelopes=" ++ toString s.validEnvelopes ++ " valid_bytes=" ++ toString s.validBytes ++
    " error_bytes=" ++ toString s.errorBytes ++ " reacquires=" ++ toString s.reacquires ++
    " failsafes=" ++ toString s.failsafes ++ "\n"

/-- Cells as a table. -/
def cellsTable (cells : Cells) : Table :=
  ⟨["CELL", "KIND", "VALUE"], cells.entries.map fun (name, c) => [name, c.kind.name, c.text]⟩

/-- A cell on one line. -/
def cellLine (entry : String × Cell) : String :=
  "  " ++ entry.1 ++ " (" ++ entry.2.kind.name ++ ") = " ++ entry.2.text ++ "\n"

/-- Cells, a line each. -/
def cellsLines (cells : Cells) : String := String.join (cells.entries.map cellLine)

/-- The word for a link's state. -/
def validity (isValid : Bool) : String := if isValid then "valid" else "invalid"

/-- Two tables: cells and counters. -/
def receiverTables (cells : Cells) (stats : LinkStats) : String :=
  (cellsTable cells).text ++ (statsTable stats).text

/-- An envelope as a document. -/
def envelopeJson (e : Envelope) : Json :=
  .object
    [("magic", .text (Hex.render e.header.magic)), ("size", number e.size),
      ("payload_size", number e.payloadSize), ("send_every", number e.header.sendEvery.toNat),
      ("send_offset", number e.header.sendOffset.toNat)]

/-- An envelope as a row. -/
def envelopeRow (e : Envelope) : List String :=
  [Hex.render e.header.magic, toString e.size, toString e.payloadSize,
    toString e.header.sendEvery.toNat, toString e.header.sendOffset.toNat]

/-- An envelope on one line. -/
def envelopeLine (e : Envelope) : String :=
  "  Envelope " ++ Hex.render e.header.magic ++ ": " ++ toString e.size ++ " bytes (" ++
    toString e.payloadSize ++ " payload), every " ++ toString e.header.sendEvery.toNat ++
    " offset " ++ toString e.header.sendOffset.toNat ++ "\n"

/-- A description of a layout. -/
def describe (format : OutputFormat) (l : Layout) : String :=
  let envelopes := l.protocol.envelopes
  let cells := l.cells.entries
  let millis := fun (d : Duration) => number (min d.millis (UInt64.size - 1))
  match format with
  | .json =>
    document "layout-info"
      [("magic_size", number l.protocol.magicSize), ("total_size", number l.protocol.size),
        ("envelopes", .array (envelopes.map envelopeJson)),
        ("cells", .array (cells.map fun (name, c) =>
          .object [("name", .text name), ("kind", .text c.kind.name)])),
        ("link", .object
          [("send_frequency", (l.settings.sendFrequency.map Json.ofFloat).getD .null),
            ("reacquire_after_ms", (l.settings.reacquireAfter.map millis).getD .null),
            ("failsafe_after_ms", (l.settings.failsafeAfter.map millis).getD .null)])]
  | .table =>
    (Table.mk ["MAGIC", "SIZE", "PAYLOAD", "EVERY", "OFFSET"] (envelopes.map envelopeRow)).text ++
      (Table.mk ["CELL", "KIND"] (cells.map fun (name, c) => [name, c.kind.name])).text
  | _ =>
    let rate :=
      match l.settings.sendFrequency with
      | some hz => hz.text .plain ++ " Hz"
      | none => "disabled"
    "Layout:\n  Magic size:  " ++ toString l.protocol.magicSize ++
      "\n  Total size:  " ++ toString l.protocol.size ++ "\n" ++
      String.join (envelopes.map envelopeLine) ++
      "  Cells:       " ++
      ", ".intercalate (cells.map fun (name, c) => name ++ " (" ++ c.kind.name ++ ")") ++
      "\n  Send rate:   " ++ rate ++ "\n"

/-- The blobs of successive turns. -/
def blobsReport (format : OutputFormat) (blobs : List Bytes) : Output :=
  let numbered := blobs.zipIdx
  match format with
  | .json =>
    .text (document "encoded-blobs"
      [("blobs", .array (numbered.map fun (b, tick) =>
        .object [("tick", number tick), ("bytes", number b.length),
          ("hex", .text (Hex.render b))]))])
  | .table =>
    .text (Table.mk ["TICK", "BYTES", "HEX"] (numbered.map fun (b, tick) =>
      [toString tick, toString b.length, Hex.render b])).text
  | .pretty =>
    .text (String.join (numbered.map fun (b, tick) =>
      "tick=" ++ toString tick ++ " bytes=" ++ toString b.length ++ " hex=" ++ Hex.render b ++
        "\n"))
  | .raw => .raw blobs.flatten

/-- What a link decoded. -/
def decodedReport (format : OutputFormat) (link : Link) (cells : Cells) : String :=
  match format with
  | .table => receiverTables cells link.stats
  | .pretty =>
    "Decoded (" ++ validity link.isValid ++ ", " ++ toString link.buffered ++
      " bytes left over):\n" ++ cellsLines cells ++ statsLine link.stats
  | _ =>
    document "decoded-cells"
      [("valid", .bool link.isValid), ("buffered", number link.buffered),
        ("stats", statsJson link.stats), ("cells", cells.json)]

/-- What a simulation came to. -/
def simulationReport (format : OutputFormat) (ticks : Nat) (s : Simulation) : String :=
  let link := s.receiver.link
  let cells := s.receiver.cells
  match format with
  | .table => receiverTables cells link.stats
  | .pretty =>
    "Simulated " ++ toString ticks ++ " ticks: " ++ toString s.counts.sends ++ " sends (" ++
      toString s.counts.sentBytes ++ " bytes), receiver " ++ validity link.isValid ++ "\n" ++
      cellsLines cells ++ statsLine link.stats
  | _ =>
    document "simulation"
      [("ticks", number ticks), ("valid", .bool link.isValid),
        ("events", .object
          [("sends", number s.counts.sends), ("sent_bytes", number s.counts.sentBytes),
            ("acquired", number s.counts.acquired), ("failsafes", number s.counts.failsafes),
            ("reacquires", number s.counts.reacquires)]),
        ("stats", statsJson link.stats), ("cells", cells.json)]

end Command

end DataLink
