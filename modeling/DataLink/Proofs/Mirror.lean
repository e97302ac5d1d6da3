import DataLink.Proofs.Magics
import DataLink.Proofs.Transmission
import Mathlib.Data.List.Forall2

/-!
# Mirrored packets

The two ends of a link differ in who writes cells and in the nonces of signatures. Apart from
that they have the same packets. This is enough for one end to read what the other writes, and
it is kept by every way to build packets from smaller ones.
-/

namespace DataLink

/-- The leaf writes a declared cell of the kind that it carries. -/
structure Leaf.Bound (declared : Cells) (leaf : Leaf) : Prop where
  writable : leaf.binding.writable = true
  cell : ∃ c, declared.get? leaf.binding.cell = some c ∧ c.kind = leaf.kind

/-- Fields that differ in nothing but whether they write, and the second one does. -/
structure Field.Mirrors (declared : Cells) (f g : Field) : Prop where
  cell : g.binding.cell = f.binding.cell
  size : g.size = f.size
  decode : g.decode = f.decode
  echo : (Leaf.field g).echo = (Leaf.field f).echo
  bound : (Leaf.field g).Bound declared

/-- Sources that differ in nothing but whether they write, and the second one does. -/
structure BitSource.Mirrors (declared : Cells) (s t : BitSource) : Prop where
  cell : t.binding.cell = s.binding.cell
  bits : t.bits = s.bits
  decode : t.decode = s.decode
  echo : (Leaf.source t).echo = (Leaf.source s).echo
  bound : (Leaf.source t).Bound declared

namespace BitSource

variable {declared : Cells} {ss ts : List BitSource}

/-- Sources that mirror each other take the same number of bits. -/
theorem totalBits_congr (h : List.Forall₂ (Mirrors declared) ss ts) : totalBits ts = totalBits ss := by
  induction h with
  | nil => rfl
  | cons hst _ ih => rw [totalBits, totalBits, hst.bits, ih]

/-- Sources that mirror each other decode alike. -/
theorem decodeAll_congr (h : List.Forall₂ (Mirrors declared) ss ts) : decodeAll ts = decodeAll ss := by
  funext input
  induction h generalizing input with
  | nil => rfl
  | cons hst _ ih => simp only [decodeAll, hst.bits, hst.decode, ih]

/-- The same values arrive from sources that mirror each other. -/
theorem echoes_congr (h : List.Forall₂ (Mirrors declared) ss ts) (cells : Cells) :
    (ts.map fun t => (Leaf.source t).echo (cells.value? t.binding.cell)) =
      ss.map fun s => (Leaf.source s).echo (cells.value? s.binding.cell) := by
  induction h with
  | nil => rfl
  | cons hst _ ih => rw [List.map_cons, List.map_cons, hst.echo, hst.cell, ih]

/-- Sources that mirror others are bound to declared cells. -/
theorem bound_of_mirrors (h : List.Forall₂ (Mirrors declared) ss ts) :
    ∀ t ∈ ts, (Leaf.source t).Bound declared := by
  induction h with
  | nil => simp
  | cons hst _ ih => exact List.forall_mem_cons.mpr ⟨hst.bound, ih⟩

end BitSource

/-- Signatures that differ in their nonces only. -/
structure Signature.Mirrors (s t : Signature) : Prop where
  nonceBytes : t.nonceBytes = s.nonceBytes
  digestBytes : t.digestBytes = s.digestBytes
  key : t.key = s.key

namespace Packet

/-- The second packet reads what the first one writes, and writes declared cells. -/
structure Mirrors (declared : Cells) (p q : Packet) : Prop where
  plain : p.Plain
  size : q.size = p.size
  decode : q.decode = p.decode
  echoes : ∀ cells, echoes q.leaves cells = echoes p.leaves cells
  bound : ∀ leaf ∈ q.leaves, leaf.Bound declared

/-- The second packets in sequence read what the first ones write, and write declared cells. -/
structure AllMirror (declared : Cells) (ps qs : List Packet) : Prop where
  plain : AllPlain ps
  size : totalSize qs = totalSize ps
  decode : decodeAll qs = decodeAll ps
  echoes : ∀ cells, Packet.echoes (allLeaves qs) cells = Packet.echoes (allLeaves ps) cells
  bound : ∀ leaf ∈ allLeaves qs, leaf.Bound declared

variable {declared : Cells}

/-- A field is mirrored as a packet if it is mirrored as a field. -/
theorem Mirrors.field {f g : Field} (h : f.Mirrors declared g) :
    (field f).Mirrors declared (field g) := by
  refine ⟨trivial, h.size, ?_, ?_, ?_⟩
  · funext input
    simp only [Packet.decode, h.size, h.decode]
  · intro cells
    simp only [Packet.echoes, leaves, List.map_cons, List.map_nil, h.echo, Leaf.binding, h.cell]
  · simpa [leaves] using h.bound

/-- No packets mirror no packets. -/
theorem AllMirror.nil : AllMirror declared [] [] :=
  ⟨trivial, rfl, rfl, fun _ => rfl, by simp [allLeaves]⟩

/-- Packets mirror each other one by one. -/
theorem AllMirror.cons {p q : Packet} {ps qs : List Packet} (h : p.Mirrors declared q)
    (hrest : AllMirror declared ps qs) : AllMirror declared (p :: ps) (q :: qs) := by
  refine ⟨⟨h.plain, hrest.plain⟩, ?_, ?_, ?_, ?_⟩
  · rw [totalSize, totalSize, h.size, hrest.size]
  · funext input
    simp only [decodeAll, h.decode, hrest.decode]
  · intro cells
    rw [allLeaves, allLeaves, echoes_append, echoes_append, h.echoes, hrest.echoes]
  · rw [allLeaves, List.forall_mem_append]
    exact ⟨h.bound, hrest.bound⟩

/-- Sequences mirror each other if their packets do. -/
theorem Mirrors.sequence {ps qs : List Packet} (h : AllMirror declared ps qs) :
    (sequence ps).Mirrors declared (sequence qs) := by
  refine ⟨h.plain, h.size, ?_, h.echoes, h.bound⟩
  funext input
  simp only [Packet.decode, h.size, h.decode]

/-- Signed packets mirror each other if their signatures and their contents do. -/
theorem Mirrors.signature {s t : Signature} {ps qs : List Packet} (hst : s.Mirrors t)
    (h : AllMirror declared ps qs) :
    (signature s ps).Mirrors declared (signature t qs) := by
  have htag : t.tag = s.tag := by
    funext nonce payload
    rw [Signature.tag, Signature.tag, hst.key, hst.digestBytes]
  refine ⟨h.plain, ?_, ?_, h.echoes, h.bound⟩
  · rw [Packet.size, Packet.size, hst.nonceBytes, h.size, hst.digestBytes]
  · funext input
    simp only [Packet.decode, hst.nonceBytes, hst.digestBytes, h.size, htag, h.decode]

/-- Packed sources mirror each other if the sources do. -/
theorem Mirrors.bits {ss ts : List BitSource}
    (h : List.Forall₂ (BitSource.Mirrors declared) ss ts) :
    (bits ss).Mirrors declared (bits ts) := by
  have hsize : BitSource.totalBytes ts = BitSource.totalBytes ss := by
    rw [BitSource.totalBytes, BitSource.totalBits_congr h, BitSource.totalBytes]
  refine ⟨trivial, hsize, ?_, ?_, ?_⟩
  · funext input
    simp only [Packet.decode, hsize, BitSource.decodeAll_congr h]
  · intro cells
    rw [leaves, leaves, Packet.echoes, Packet.echoes, List.map_map, List.map_map]
    exact BitSource.echoes_congr h cells
  · rw [leaves, List.forall_mem_map]
    exact BitSource.bound_of_mirrors h

end Packet

/-- The second envelope reads what the first one writes, and writes declared cells. -/
structure Envelope.Mirrors (declared : Cells) (e f : Envelope) : Prop where
  magic : f.header.magic = e.header.magic
  packets : Packet.AllMirror declared e.packets f.packets

/-- If envelopes mirror each other, so do the ways in which they are read. -/
theorem Envelope.Mirrors.reader {declared : Cells} {e f : Envelope} (h : e.Mirrors declared f) :
    e.reader.Mirrors f.reader := by
  refine ⟨h.magic, ?_, h.packets.echoes, fun leaf hleaf => (h.packets.bound leaf hleaf).writable⟩
  funext input
  simp only [Envelope.reader, Envelope.packet, Packet.decode, h.magic, h.packets.size,
    h.packets.decode]

namespace Protocol

variable {declared : Cells} {es fs : List Envelope}

/-- The magics of envelopes that mirror each other are both right or both wrong. -/
theorem checkMagics_congr (h : List.Forall₂ (Envelope.Mirrors declared) es fs) (magicSize : Nat)
    (seen : List Bytes) : checkMagics magicSize seen fs = checkMagics magicSize seen es := by
  induction h generalizing seen with
  | nil => rfl
  | cons hef _ ih => simp only [checkMagics, hef.magic, ih]

/-- The sizes of envelopes that mirror each other are both right or both wrong. -/
theorem checkSizes_congr (h : List.Forall₂ (Envelope.Mirrors declared) es fs) (magicSize : Nat) :
    checkSizes magicSize fs = checkSizes magicSize es := by
  induction h with
  | nil => rfl
  | cons hef _ ih =>
    simp only [checkSizes, Envelope.payloadSize, hef.magic, hef.packets.size, ih]
    rfl

/-- A protocol is only made of envelopes whose magics are distinct. -/
theorem distinct_of_new {p : Protocol} (h : Protocol.new es = .ok p) : p.Distinct := by
  obtain ⟨rfl, -, hall, hnodup⟩ := new_eq_ok_iff.mp h
  exact ⟨fun e he => (hall e he).1, hnodup⟩

/-- Protocols whose envelopes mirror each other do so place by place. -/
theorem mirrors_of_forall₂ (h : List.Forall₂ (Envelope.Mirrors declared) es fs) :
    (⟨es⟩ : Protocol).Mirrors ⟨fs⟩ := by
  intro i r hr
  rw [readers, List.getElem?_map, Option.map_eq_some_iff] at hr
  obtain ⟨e, he, rfl⟩ := hr
  obtain ⟨hi, rfl⟩ := List.getElem?_eq_some_iff.mp he
  have hi' : i < fs.length := h.length_eq ▸ hi
  refine ⟨fs[i].reader, ?_, (h.get hi hi').reader⟩
  rw [readers, List.getElem?_map, List.getElem?_eq_getElem hi', Option.map_some]

/-- Only plain envelopes are mirrored. -/
theorem plain_of_mirrors (h : List.Forall₂ (Envelope.Mirrors declared) es fs) :
    (⟨es⟩ : Protocol).Plain := by
  induction h with
  | nil => simp [Plain]
  | cons hef _ ih => exact List.forall_mem_cons.mpr ⟨hef.packets.plain, ih⟩

/-- Every leaf of a receiver's protocol writes a declared cell. -/
theorem bound_of_mirrors (h : List.Forall₂ (Envelope.Mirrors declared) es fs) {i : Nat}
    {leaf : Leaf} (hleaf : leaf ∈ (⟨fs⟩ : Protocol).leavesAt i) : leaf.Bound declared := by
  have hall : ∀ f ∈ fs, ∀ leaf ∈ f.leaves, leaf.Bound declared := by
    clear hleaf
    induction h with
    | nil => simp
    | cons hef _ ih => exact List.forall_mem_cons.mpr ⟨hef.packets.bound, ih⟩
  unfold leavesAt at hleaf
  split at hleaf
  · next f hf => exact hall f (List.mem_of_getElem? hf) leaf hleaf
  · cases hleaf

end Protocol

end DataLink
