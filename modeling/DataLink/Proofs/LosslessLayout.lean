import DataLink.Proofs.Bindings
import DataLink.Proofs.Inversion
import Mathlib.Data.List.Nodup

/-!
# Lossless layouts

A layout without floats and signatures whose cells are bound once keeps everything that arrives: an
envelope that was eaten and delivered is emitted as the bytes that were eaten, apart from padding.
-/

namespace DataLink

namespace Layout

mutual

/-- The cells that the parts of a described packet are bound to, in wire order. -/
def PacketDoc.boundCells : PacketDoc → List String
  | .value d => [d.cell]
  | .bitfield ds => ds.map SourceDoc.cell
  | .sequence ds => PacketDoc.allBoundCells ds
  | .signature _ _ _ ds => PacketDoc.allBoundCells ds

/-- The cells that the parts of described packets are bound to. -/
def PacketDoc.allBoundCells : List PacketDoc → List String
  | [] => []
  | d :: rest => d.boundCells ++ PacketDoc.allBoundCells rest

end

mutual

/-- No signature is described. -/
def PacketDoc.Bare : PacketDoc → Prop
  | .value _ => True
  | .bitfield _ => True
  | .sequence ds => PacketDoc.AllBare ds
  | .signature _ _ _ _ => False

/-- No signature is described in any of the packets. -/
def PacketDoc.AllBare : List PacketDoc → Prop
  | [] => True
  | d :: rest => d.Bare ∧ PacketDoc.AllBare rest

end

/-- The cells that a document's fields and bit sources are bound to. -/
def Document.boundCells (d : Document) : List String :=
  d.envelopes.flatMap fun e => PacketDoc.allBoundCells e.packets

/-- A document of a layout that keeps everything that arrives: without signatures and float fields,
and with at most one field for every cell. -/
structure Document.Lossless (d : Document) : Prop where
  bare : ∀ e ∈ d.envelopes, PacketDoc.AllBare e.packets
  exact : ∀ name ∈ d.boundCells, (declareAll d.cells).kind? name ≠ some .float
  once : d.boundCells.Nodup

variable {c : Context}

/-- A field is bound to the cell of its document. -/
theorem cell_of_field {d : FieldDoc} {f : Field} (h : field c d = .ok f) :
    f.binding.cell = d.cell := by
  obtain ⟨_, -, hbinding, -⟩ := (@field_rebind c c rfl d).of_left h
  exact congrArg Binding.cell hbinding

/-- A bit source is bound to the cell of its document. -/
theorem cell_of_source {d : SourceDoc} {s : BitSource} (h : source c d = .ok s) :
    s.binding.cell = d.cell := by
  obtain ⟨_, -, hbinding, -⟩ := (@source_rebind c c rfl d).of_left h
  exact congrArg Binding.cell hbinding

/-- Bit sources are bound to the cells of their documents, in order. -/
theorem cells_of_sources {ds : List SourceDoc} {sources : List BitSource}
    (h : ds.mapM (source c) = .ok sources) :
    (sources.map fun s => s.binding.cell) = ds.map SourceDoc.cell := by
  induction ds generalizing sources with
  | nil =>
    cases h
    rfl
  | cons d rest ih =>
    rw [List.mapM_cons] at h
    obtain ⟨s, hs, h⟩ := of_bind_ok h
    obtain ⟨others, hothers, h⟩ := of_bind_ok h
    cases h
    rw [List.map_cons, List.map_cons, cell_of_source hs, ih hothers]

mutual

/-- From a bare document a bare packet is built, with leaves bound to the document's cells. -/
theorem packet_shapes {s s' : Signing} {p : Packet} : ∀ {d : PacketDoc}, d.Bare →
    packet c d s = .ok (p, s') →
      p.Bare ∧ (p.leaves.map fun leaf => leaf.binding.cell) = d.boundCells
  | .value d, _, h => by
    rw [packet] at h
    obtain ⟨f, hf, heq⟩ := Packet.map_ok_iff.mp h
    cases heq
    exact ⟨trivial, congrArg (fun name => [name]) (cell_of_field hf)⟩
  | .bitfield ds, _, h => by
    rw [packet] at h
    obtain ⟨sources, hsources, heq⟩ := Packet.map_ok_iff.mp h
    cases heq
    refine ⟨trivial, ?_⟩
    rw [Packet.leaves, List.map_map]
    exact cells_of_sources hsources
  | .sequence ds, hbare, h => by
    rw [packet] at h
    rw [PacketDoc.Bare] at hbare
    obtain ⟨⟨ps, _⟩, hps, heq⟩ := Packet.map_ok_iff.mp h
    cases heq
    exact packets_shapes hbare hps

/-- From bare documents bare packets are built, with leaves bound to the documents' cells. -/
theorem packets_shapes {s s' : Signing} {ps : List Packet} : ∀ {ds : List PacketDoc},
    PacketDoc.AllBare ds → packets c ds s = .ok (ps, s') →
      Packet.AllBare ps ∧
        ((Packet.allLeaves ps).map fun leaf => leaf.binding.cell) = PacketDoc.allBoundCells ds
  | [], _, h => by
    rw [packets] at h
    cases h
    exact ⟨trivial, rfl⟩
  | d :: rest, hbare, h => by
    rw [packets] at h
    obtain ⟨⟨p, _⟩, hp, h⟩ := of_bind_ok h
    obtain ⟨⟨others, _⟩, hothers, h⟩ := of_bind_ok h
    cases h
    obtain ⟨hfirst, hcells⟩ := packet_shapes hbare.1 hp
    obtain ⟨hrest, hcells'⟩ := packets_shapes hbare.2 hothers
    refine ⟨⟨hfirst, hrest⟩, ?_⟩
    rw [Packet.allLeaves, List.map_append, hcells, hcells', PacketDoc.allBoundCells]

end

/-- An envelope holds the packets that it is made of. -/
theorem packets_of_new {magic : Bytes} {sendEvery sendOffset : UInt64} {ps : List Packet}
    {e : Envelope} (h : Envelope.new magic sendEvery sendOffset ps = .ok e) : e.packets = ps := by
  obtain ⟨_, -, rfl⟩ := Packet.map_ok_iff.mp h
  rfl

/-- Every envelope that is built is described. -/
theorem envelopes_shapes {ds : List EnvelopeDoc} {s s' : Signing} {es : List Envelope}
    (h : envelopes c ds s = .ok (es, s')) :
    ∀ e ∈ es, ∃ d ∈ ds, PacketDoc.AllBare d.packets → Packet.AllBare e.packets ∧
      (e.leaves.map fun leaf => leaf.binding.cell) = PacketDoc.allBoundCells d.packets := by
  induction ds generalizing s es with
  | nil =>
    cases h
    simp
  | cons d rest ih =>
    rw [envelopes] at h
    obtain ⟨magic, -, h⟩ := of_bind_ok h
    obtain ⟨⟨ps, _⟩, hps, h⟩ := of_bind_ok h
    obtain ⟨e, he, h⟩ := of_bind_ok h
    obtain ⟨⟨others, _⟩, hothers, h⟩ := of_bind_ok h
    cases h
    intro f hf
    rcases List.mem_cons.mp hf with rfl | hf
    · refine ⟨d, List.mem_cons_self, ?_⟩
      intro hbare
      rw [Envelope.leaves, packets_of_new (of_mapError_ok he)]
      exact packets_shapes hbare hps
    · obtain ⟨d', hd', hshape⟩ := ih hothers f hf
      exact ⟨d', List.mem_cons_of_mem _ hd', hshape⟩

/-- What is built from a lossless document, for an end that writes its cells, is lossless. -/
theorem lossless_of_build {o : Options} {d : Document} {l : Layout} (h : build o d = .ok l)
    (hwrites : o.readOnly = false) (hd : d.Lossless) :
    ∀ e ∈ l.protocol.envelopes, Packet.Lossless l.cells e.packets := by
  intro e he
  obtain ⟨hdeclared, _, henvelopes⟩ := build_eq_ok h
  obtain ⟨described, hmem, hshape⟩ := envelopes_shapes henvelopes e he
  obtain ⟨hbare, hcells⟩ := hshape (hd.bare described hmem)
  obtain ⟨i, hi⟩ := List.mem_iff_getElem?.mp he
  have hbound : ∀ leaf ∈ e.leaves, leaf.Bound l.cells := by
    intro leaf hleaf
    have hat : l.protocol.leavesAt i = e.leaves := by rw [Protocol.leavesAt, hi]
    exact Protocol.bound_of_mirrors (mirrors_of_build h h hwrites).envelopes (hat ▸ hleaf)
  refine ⟨hbare, ?_, ?_, hbound⟩
  · intro leaf hleaf hfloat
    have hname : leaf.binding.cell ∈ d.boundCells := by
      apply List.mem_flatMap.mpr
      exact ⟨described, hmem, hcells ▸ List.mem_map_of_mem hleaf⟩
    obtain ⟨found, hfound, hkind⟩ := (hbound leaf hleaf).cell
    apply hd.exact _ hname
    rw [← hdeclared, Cells.kind?, hfound, Option.map_some, hkind, hfloat]
  · have honce := (List.nodup_flatMap.mp hd.once).1 described hmem
    rw [← hcells] at honce
    exact honce

/-- What is decoded and delivered is encoded as it was, apart from padding. This holds for every
state that a lossless layout's protocol can be brought to, for every input that it eats and whatever
its cells held before. The envelope that was eaten comes due again, and each time it does, its
emission is what was eaten, as long as its cells are left alone. Reading and writing back is the
identity on the wire values of every integer width and of every bit width. -/
theorem encode_undoes_decode {o : Options} {d : Document} {l : Layout} (h : build o d = .ok l)
    (hwrites : o.readOnly = false) (hd : d.Lossless) {p : Protocol} (hp : l.protocol.Reaches p)
    {input : Bytes} {eaten : Eaten} (heat : (p.eat input).2 = .ok eaten) {cells : Cells}
    (hkinds : ∀ name, cells.kind? name = l.cells.kind? name) :
    (∃ turns e, (Protocol.advance^[turns] (p.eat input).1).envelopes[eaten.envelope]? = some e ∧
      e.isDue = true) ∧
    (∀ q, (p.eat input).1.Reaches q → ∀ e, q.envelopes[eaten.envelope]? = some e →
      e.isDue = true → e.emit ((p.eat input).1.deliver eaten.envelope cells) =
        e.packet.unpadded (input.take eaten.consumed)) ∧
    (∀ f : Field, f.kind ≠ .float → ∀ bytes : Bytes, bytes.length = f.size →
      f.encode (f.decode bytes) = bytes) ∧
    ∀ s : BitSource, ∀ bits : Bits, bits.length = s.bits → s.encode (some (s.decode bits)) = bits := by
  refine ⟨?_, ?_, ?_, ?_⟩
  · obtain ⟨e, he, -⟩ := Protocol.eat_ok heat
    obtain ⟨f, hf, -⟩ := Protocol.getElem?_congr (p.readers_eat input).symm he
    exact Protocol.exists_isDue hf
  · intro q hq e he hdue
    have hlossless := hp.lossless (lossless_of_build h hwrites hd)
    exact Protocol.emit_of_eat hlossless heat hkinds hq he hdue
  · intro f hf bytes hbytes
    exact f.encode_decode hf hbytes
  · intro s bits hbits
    exact s.encode_decode hbits

/-- A signed field in front of a sequence. The bits of the code there lie in nine bytes, and seven
bits behind them are unused. The envelope is due on every other turn. -/
def keepingDocument : Document :=
  { cells := [("alarm", .bool), ("code", .unsigned), ("count", .unsigned), ("level", .signed)]
    envelopes :=
      [⟨"ab", 2, 1,
        [.value ⟨"level", 2, false, none, none⟩,
          .sequence
            [.bitfield [⟨"alarm", none, false, none⟩, ⟨"code", some 64, false, none⟩],
              .value ⟨"count", 1, true, none, none⟩]]⟩]
    link := none
    seed := none }

/-- The document loses nothing. -/
theorem lossless_keepingDocument : keepingDocument.Lossless := by
  constructor
  · simp [keepingDocument, PacketDoc.AllBare, PacketDoc.Bare]
  · decide
  · decide

/-- The least level and the greatest code arrive, all unused bits are set, and more follows. -/
def keepingInput : Bytes :=
  [0xAB, 0x00, 0x80, 0xFF, 0xFF, 0xFF, 0xFF, 0xFF, 0xFF, 0xFF, 0xFF, 0xFF, 7, 99]

/-- The input without its unused bits and without what follows. -/
def keptInput : Bytes :=
  [0xAB, 0x00, 0x80, 0xFF, 0xFF, 0xFF, 0xFF, 0xFF, 0xFF, 0xFF, 0xFF, 0x80, 7]

/-- They are emitted on the turn after the coming one, with the unused bits cleared. -/
theorem encode_undoes_decode_keeping :
    ∃ l e, build .default keepingDocument = .ok l ∧
      (l.protocol.eat keepingInput).2 = .ok ⟨0, 13⟩ ∧
      (l.protocol.eat keepingInput).1.advance.envelopes[0]? = some e ∧ e.isDue = true ∧
      e.emit ((l.protocol.eat keepingInput).1.deliver 0
        (l.cells.put "level" (some (.signed 5)))) = keptInput := by
  have hstate : ∃ l e, build .default keepingDocument = .ok l ∧
      (l.protocol.eat keepingInput).2 = .ok ⟨0, 13⟩ ∧
      (l.protocol.eat keepingInput).1.advance.envelopes[0]? = some e ∧ e.isDue = true ∧
      e.packet.unpadded (keepingInput.take 13) = keptInput :=
    ⟨_, _, rfl, rfl, rfl, rfl, rfl⟩
  obtain ⟨l, e, hbuild, heat, he, hdue, hunpadded⟩ := hstate
  have hkinds (name : String) :
      (l.cells.put "level" (some (.signed 5))).kind? name = l.cells.kind? name :=
    Cells.kind?_put _ _ _ _
  obtain ⟨-, hemits, -, -⟩ :=
    encode_undoes_decode hbuild rfl lossless_keepingDocument .start heat hkinds
  have hemit := hemits _ (.advance .start) e he hdue
  exact ⟨l, e, hbuild, heat, he, hdue, hemit.trans hunpadded⟩

end Layout

end DataLink
