import DataLink.Json.Reader
import DataLink.Link.Settings

/-!
# Layout documents

A layout document names cells and describes envelopes in terms of them. What is read here
has the right shape; whether it makes sense is found when the layout is built.
-/

namespace DataLink

namespace Layout

/-- A described field. -/
structure FieldDoc where
  cell : String
  bytes : Nat
  retained : Bool
  offset : Option Binary64
  valueIfNil : Option Json

/-- A described bit source. -/
structure SourceDoc where
  cell : String
  bits : Option Nat
  retained : Bool
  valueIfNil : Option Json

/-- A described packet. -/
inductive PacketDoc where
  | value (field : FieldDoc)
  | bitfield (sources : List SourceDoc)
  | sequence (packets : List PacketDoc)
  | signature (nonceBytes digestBytes : Nat) (key : String) (packets : List PacketDoc)

/-- A described envelope. -/
structure EnvelopeDoc where
  magic : String
  sendEvery : UInt64
  sendOffset : UInt64
  packets : List PacketDoc

/-- A layout document. -/
structure Document where
  /-- Cells in the order of their names. -/
  cells : List (String × CellKind)
  envelopes : List EnvelopeDoc
  link : Option Settings
  seed : Option UInt64

namespace Document

open TokenReader

/-- The kind of a cell. -/
def kind (depth : Nat) : TokenReader CellKind :=
  alternative depth CellKind.ofName? fun name =>
    (CellKind.ofName? name).map fun kind _ => do
      null
      return kind

/-- A described field. -/
def field : Nat → TokenReader FieldDoc :=
  record
    [.of "cell" false (fun _ => text) fun d cell => { d with cell },
      .of "bytes" false (fun _ => natural UInt64.size) fun d bytes => { d with bytes },
      .of "retained" true (fun _ => bool) fun d retained => { d with retained },
      .of "offset" true (fun _ => optional float) fun d offset => { d with offset },
      .of "value_if_nil" true (fun depth => optional (json (depth + 1) depth))
        fun d valueIfNil => { d with valueIfNil }]
    ⟨"", 0, false, none, none⟩

/-- A described bit source. -/
def source : Nat → TokenReader SourceDoc :=
  record
    [.of "cell" false (fun _ => text) fun d cell => { d with cell },
      .of "bits" true (fun _ => optional (natural 256)) fun d bits => { d with bits },
      .of "retained" true (fun _ => bool) fun d retained => { d with retained },
      .of "value_if_nil" true (fun depth => optional (json (depth + 1) depth))
        fun d valueIfNil => { d with valueIfNil }]
    ⟨"", none, false, none⟩

/-- A described signature under construction. -/
structure SignatureDraft where
  nonceBytes : Nat
  digestBytes : Nat
  key : String
  packets : List PacketDoc

/-- A described signature, given how packets are read. -/
def signature (packets : Nat → TokenReader (List PacketDoc)) : Nat → TokenReader SignatureDraft :=
  record
    [.of "nonce_bytes" false (fun _ => natural 256) fun d nonceBytes => { d with nonceBytes },
      .of "signature_bytes" false (fun _ => natural 256)
        fun d digestBytes => { d with digestBytes },
      .of "key" false (fun _ => text) fun d key => { d with key },
      .of "packets" false packets fun d packets => { d with packets }]
    ⟨0, 0, "", []⟩

/-- A described packet. The first argument bounds nesting like `depth` does. -/
def packet : Nat → Nat → TokenReader PacketDoc
  | 0, _ => fun tokens => .error (misplacedText tokens)
  | bound + 1, depth =>
    let packets := fun depth => array depth (packet bound)
    alternative depth (fun _ => none) fun name =>
      if name = "value" then some fun depth => return .value (← field depth)
      else if name = "bitfield" then some fun depth => return .bitfield (← array depth source)
      else if name = "sequence" then some fun depth => return .sequence (← packets depth)
      else if name = "signature" then
        some fun depth => do
          let d ← signature packets depth
          return .signature d.nonceBytes d.digestBytes d.key d.packets
      else none

/-- A described envelope. -/
def envelope : Nat → TokenReader EnvelopeDoc :=
  record
    [.of "magic" false (fun _ => text) fun d magic => { d with magic },
      .of "send_every" true (fun _ => natural64) fun d sendEvery => { d with sendEvery },
      .of "send_offset" true (fun _ => natural64) fun d sendOffset => { d with sendOffset },
      .of "packets" false (fun depth => array depth (packet (depth + 1)))
        fun d packets => { d with packets }]
    ⟨"", 1, 0, []⟩

/-- A time in milliseconds. -/
def millis : TokenReader (Option Duration) := do
  return (← optional (natural UInt64.size)).map Duration.ofMillis

/-- Link settings. -/
def settings : Nat → TokenReader Settings :=
  record
    [.of "send_frequency" true (fun _ => optional float)
        fun d sendFrequency => { d with sendFrequency },
      .of "reacquire_after_ms" true (fun _ => millis)
        fun d reacquireAfter => { d with reacquireAfter },
      .of "failsafe_after_ms" true (fun _ => millis)
        fun d failsafeAfter => { d with failsafeAfter },
      .of "input_interference" true (fun _ => float)
        fun d inputInterference => { d with inputInterference },
      .of "output_interference" true (fun _ => float)
        fun d outputInterference => { d with outputInterference },
      .of "interference_seed" true (fun _ => optional natural64)
        fun d interferenceSeed => { d with interferenceSeed }]
    .default

/-- A layout document. -/
def document : Nat → TokenReader Document :=
  record
    [.of "cells" false (fun depth => map depth kind)
        fun d cells => { d with cells := sortMembers cells },
      .of "envelopes" false (fun depth => array depth envelope)
        fun d envelopes => { d with envelopes },
      .of "link" true (fun depth => optional (settings depth)) fun d link => { d with link },
      .of "seed" true (fun _ => optional natural64) fun d seed => { d with seed }]
    ⟨[], [], none, none⟩

/-- Reads a layout document. -/
def ofText (text : String) : Except JsonFault Document := run document text

/-- Reads link settings alone. -/
def settingsOfText (text : String) : Except JsonFault Settings := run settings text

end Document

end Layout

end DataLink
