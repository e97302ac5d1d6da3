import DataLink.Link
import DataLink.Packet.Port
import DataLink.Text.Record

/-!
# Diagnostics of packets and links

One-line texts that show the whole structure of a packet, with the cells it is bound to
and the values staged for its leaves, or the state of a link. Keys are not shown.
-/

namespace DataLink

open Record

/-- A value in diagnostics. -/
def Value.diagnostic : Value → String
  | .float x => x.text .diagnostic
  | v => v.text

namespace IntWidth

/-- The width in diagnostics. -/
def diagnostic (w : IntWidth) : String := "W" ++ toString w.bytes

end IntWidth

namespace FloatWidth

/-- The width in diagnostics. -/
def diagnostic (w : FloatWidth) : String := "W" ++ toString w.bytes

end FloatWidth

/-- A binding in diagnostics, with the cell it refers to. -/
def Binding.diagnostic (b : Binding) (cells : Cells) : String :=
  let value := option ((cells.value? b.cell).map Value.diagnostic)
  let serial := ((cells.get? b.cell).map Cell.serial).getD 0
  let cell := fields "ValueCell" [("value", value), ("serial", toString serial.toNat)]
  fields "Binding" [("cell", cell), ("writable", toString b.writable)]

/-- A field in diagnostics, with its staged value. -/
def Field.diagnostic (f : Field) (cells : Cells) (staged : Option Value) : String :=
  let pending := ("pending", option (staged.map Value.diagnostic))
  let binding := ("binding", f.binding.diagnostic cells)
  let content :=
    match f with
    | .signed f =>
      fields "Signed" [binding, ("width", f.width.diagnostic),
        ("value_if_nil", toString f.valueIfNil.toInt), pending]
    | .unsigned f =>
      fields "Unsigned" [binding, ("width", f.width.diagnostic),
        ("value_if_nil", toString f.valueIfNil.toNat), pending]
    | .float f =>
      fields "Float" [binding, ("width", f.width.diagnostic),
        ("offset", option (f.offset.map fun x => x.text .diagnostic)), pending]
  fields "ValueCodec" [("field", content), ("retained", toString f.binding.retained)]

/-- A bit source in diagnostics, with its staged value. -/
def BitSource.diagnostic (s : BitSource) (cells : Cells) (staged : Option Value) : String :=
  let pending := ("pending", option (staged.map Value.diagnostic))
  let binding := ("binding", s.binding.diagnostic cells)
  let retained := ("retained", toString s.binding.retained)
  match s with
  | .flag s => fields "Bool" [binding, retained, ("value_if_nil", toString s.valueIfNil), pending]
  | .digits s =>
    fields "Unsigned" [binding, ("bits", toString s.bits), retained,
      ("value_if_nil", toString s.valueIfNil.toNat), pending]

/-- Bit sources in diagnostics, each with its staged value. -/
def BitSource.diagnostics (cells : Cells) : List BitSource → Staged → List String
  | [], _ => []
  | s :: rest, staged =>
    s.diagnostic cells (staged.headD none) :: diagnostics cells rest staged.tail

/-- Packets in sequence in diagnostics. -/
def sequenceDiagnostic (packets : List String) : String :=
  fields "Sequence" [("packets", list packets)]

namespace Packet

mutual

/-- A packet in diagnostics, with its staged values. -/
def diagnostic (cells : Cells) : Packet → Staged → String
  | .field f, staged => wrap "Value" (f.diagnostic cells (staged.headD none))
  | .bits sources, staged =>
    wrap "Bitfield" (fields "Bitfield"
      [("sources", list (BitSource.diagnostics cells sources staged)),
        ("size", toString (BitSource.totalBytes sources))])
  | .sequence packets, staged =>
    wrap "Sequence" (sequenceDiagnostic (diagnostics cells packets staged))
  | .signature s packets, staged =>
    wrap "Signature" (fields "Signature"
      [("nonce_bytes", toString s.nonceBytes), ("signature_bytes", toString s.digestBytes),
        ("key", "<redacted:" ++ toString s.key.length ++ " bytes>"),
        ("sequence", sequenceDiagnostic (diagnostics cells packets staged))])
  | .envelope h packets, staged =>
    wrap "Envelope" (fields "Envelope"
      [("magic", list (h.magic.map fun b => toString b.toNat)),
        ("send_every", toString h.sendEvery.toNat), ("send_offset", toString h.sendOffset.toNat),
        ("send_pos", toString h.turns.toNat),
        ("sequence", sequenceDiagnostic (diagnostics cells packets staged))])

/-- Packets in diagnostics, each with its own staged values. -/
def diagnostics (cells : Cells) : List Packet → Staged → List String
  | [], _ => []
  | p :: rest, staged =>
    let own := p.leaves.length
    p.diagnostic cells (staged.take own) :: diagnostics cells rest (staged.drop own)

end

end Packet

/-- A port in diagnostics. -/
def Port.diagnostic (p : Port) (cells : Cells) : String := p.packet.diagnostic cells p.staged

/-- Settings in diagnostics. -/
def Settings.diagnostic (s : Settings) : String :=
  let float := fun (x : Binary64) => x.text .diagnostic
  fields "LinkConfig"
    [("send_frequency", option (s.sendFrequency.map float)),
      ("reacquire_after", option (s.reacquireAfter.map Duration.text)),
      ("failsafe_after", option (s.failsafeAfter.map Duration.text)),
      ("input_interference", float s.inputInterference),
      ("output_interference", float s.outputInterference),
      ("interference_seed", option (s.interferenceSeed.map fun n => toString n.toNat))]

/-- Counters in diagnostics. -/
def LinkStats.diagnostic (s : LinkStats) : String :=
  fields "LinkStats"
    [("failsafes", toString s.failsafes), ("reacquires", toString s.reacquires),
      ("error_bytes", toString s.errorBytes), ("valid_bytes", toString s.validBytes),
      ("valid_envelopes", toString s.validEnvelopes)]

/-- A link in diagnostics. -/
def Link.diagnostic (link : Link) : String :=
  fields "Link"
    [("state", if link.isValid then "Valid" else "Invalid"), ("stats", link.stats.diagnostic),
      ("buffered", toString link.buffered), ("config", link.settings.diagnostic)]

end DataLink
