import DataLink.Proofs.Arrivals
import DataLink.Proofs.Cadence
import DataLink.Proofs.Mirror
import DataLink.Proofs.Reencoding

/-!
# Emitting what was eaten

Once an envelope without signatures and floats was eaten and delivered, its cells hold what was
decoded if no two leaves have one cell. The next time it is due it is emitted as it was eaten.
-/

namespace DataLink

/-- An envelope writes back what it read, once it is due. -/
theorem Envelope.inverts_of_decode {e : Envelope} {input : Bytes} {n : Nat}
    (hbare : Packet.AllBare e.packets) (hkinds : ∀ leaf ∈ e.leaves, leaf.kind ≠ .float)
    (h : (e.packet.decode input).outcome = .ok n) :
    Packet.Inverts e.leaves (e.packet.decode input).staged
      (fun cells => e.header.magic ++ Packet.emitAll cells e.packets)
      (e.packet.unpadded (input.take n)) := by
  obtain ⟨hn, hle, -⟩ := Packet.decode_ok h
  simp only [packet, Packet.size] at hn hle
  subst hn
  simp only [packet, Packet.decode, Packet.needing_of_le _ hle] at h ⊢
  split at h
  · next hmagic =>
    obtain ⟨m, hm, -⟩ := Packet.map_ok_iff.mp h
    have hpackets := Packet.inverts_of_decodeAll hbare hkinds hm
    have hfront : (input.take (e.header.magic.length + Packet.totalSize e.packets)).take
        e.header.magic.length = e.header.magic := by
      rw [List.take_take, Nat.min_eq_left (Nat.le_add_right _ _), hmagic]
    have hbehind : (input.take (e.header.magic.length + Packet.totalSize e.packets)).drop
        e.header.magic.length = (input.drop e.header.magic.length).take
          (Packet.totalSize e.packets) := by
      rw [List.drop_take, Nat.add_sub_cancel_left]
    rw [if_pos hmagic, Packet.unpadded, hfront, hbehind]
    refine ⟨hpackets.carries, ?_⟩
    intro cells hheld
    rw [hpackets.emits cells hheld]
  · cases h

namespace Leaf

variable {leaves : List Leaf} {staged : Staged}

/-- A value that a leaf carries is assigned to the leaf's cell as it is. -/
theorem deliveries_of_carries {leaf : Leaf} {value : Option Value} (h : leaf.Carries value)
    (hwritable : leaf.binding.writable = true) :
    leaf.deliveries value = [⟨leaf.binding.cell, value⟩] := by
  obtain ⟨v, rfl, -, hrestore⟩ := h
  simp only [deliveries, Option.map_some, hrestore, Binding.deliveries, Option.isNone_some,
    Bool.false_and, Bool.false_eq_true, if_false, Binding.writes, if_pos hwritable]

/-- The assignments of leaves that carry values are to the leaves' cells. -/
theorem map_cell_writes (h : List.Forall₂ Carries leaves staged)
    (hwritable : ∀ leaf ∈ leaves, leaf.binding.writable = true) :
    (Staged.writes leaves staged).map Assignment.cell = leaves.map fun leaf => leaf.binding.cell := by
  induction h with
  | nil => rfl
  | @cons leaf value rest values hleaf _ ih =>
    obtain ⟨hfirst, hrest⟩ := List.forall_mem_cons.mp hwritable
    rw [Staged.writes_cons, deliveries_of_carries hleaf hfirst, List.map_append, ih hrest]
    rfl

/-- Leaves of distinct cells deliver what is staged for them. -/
theorem held_replay_writes (h : List.Forall₂ Carries leaves staged)
    (hwritable : ∀ leaf ∈ leaves, leaf.binding.writable = true)
    (honce : (leaves.map fun leaf => leaf.binding.cell).Nodup) {cells : Cells}
    (hkinds : ∀ leaf ∈ leaves, cells.kind? leaf.binding.cell = some leaf.kind) :
    held leaves (cells.replay (Staged.writes leaves staged)) = staged := by
  induction h generalizing cells with
  | nil => rfl
  | @cons leaf value rest values hleaf hvalues ih =>
    obtain ⟨hfirst, hrest⟩ := List.forall_mem_cons.mp hwritable
    obtain ⟨hkind, hkinds⟩ := List.forall_mem_cons.mp hkinds
    rw [List.map_cons, List.nodup_cons] at honce
    have hkinds' : ∀ leaf' ∈ rest,
        (cells.put leaf.binding.cell value).kind? leaf'.binding.cell = some leaf'.kind := by
      intro leaf' hleaf'
      rw [Cells.kind?_put, hkinds leaf' hleaf']
    have haccepts : cells.Accepts ⟨leaf.binding.cell, value⟩ := by
      obtain ⟨v, rfl, hv, -⟩ := hleaf
      refine ⟨leaf.kind, hkind, ?_⟩
      intro v' hv'
      rw [← Option.some.inj hv', hv]
    have hvalue : ((cells.put leaf.binding.cell value).replay (Staged.writes rest values)).value?
        leaf.binding.cell = value := by
      rw [Cells.value?_replay_of_not_mem (by rw [map_cell_writes hvalues hrest]; exact honce.1),
        Cells.value?_put haccepts, if_pos rfl]
    have hothers := ih hrest honce.2 hkinds'
    rw [held] at hothers ⊢
    rw [Staged.writes_cons, deliveries_of_carries hleaf hfirst, List.singleton_append, List.map_cons,
      Cells.replay, List.foldl_cons, ← Cells.replay, hvalue, hothers]

end Leaf

namespace Packet

mutual

/-- Only signatures and envelopes change with emission. -/
theorem advance_of_bare : ∀ {p : Packet}, p.Bare → p.advance = p
  | .field _, _ => rfl
  | .bits _, _ => rfl
  | .sequence packets, h => by
    rw [Bare] at h
    rw [advance, advanceAll_of_bare h]

/-- Packets without signatures and inner envelopes do not change from turn to turn. -/
theorem advanceAll_of_bare : ∀ {packets : List Packet}, AllBare packets →
    advanceAll packets = packets
  | [], _ => rfl
  | p :: rest, h => by rw [advanceAll, advance_of_bare h.1, advanceAll_of_bare h.2]

end

/-- Packets that keep everything that arrives: without signatures and floats, and with a cell of
its own for every leaf, which writes it. -/
structure Lossless (declared : Cells) (packets : List Packet) : Prop where
  bare : AllBare packets
  exact : ∀ leaf ∈ allLeaves packets, leaf.kind ≠ .float
  once : ((allLeaves packets).map fun leaf => leaf.binding.cell).Nodup
  bound : ∀ leaf ∈ allLeaves packets, leaf.Bound declared

end Packet

namespace Protocol

variable {declared : Cells} {p q r : Protocol}

/-- After some turns each envelope of a protocol has seen as many. -/
theorem getElem?_iterate_advance (p : Protocol) (turns i : Nat) :
    (Protocol.advance^[turns] p).envelopes[i]? =
      (p.envelopes[i]?).map (Envelope.advance^[turns]) := by
  induction turns with
  | zero => simp
  | succ turns ih =>
    rw [Function.iterate_succ_apply', Function.iterate_succ', advance, List.getElem?_map, ih,
      Option.map_map]

/-- Every envelope comes due. -/
theorem exists_isDue {e : Envelope} {i : Nat} (he : p.envelopes[i]? = some e) :
    ∃ turns e', (Protocol.advance^[turns] p).envelopes[i]? = some e' ∧ e'.isDue = true := by
  obtain ⟨turns, hdue⟩ := e.header.exists_isDue
  refine ⟨turns, Envelope.advance^[turns] e, ?_, ?_⟩
  · rw [getElem?_iterate_advance, he, Option.map_some]
  · rwa [Envelope.isDue, Envelope.header_iterate_advance]

/-- Emitting and eating keep packets that have neither signatures nor envelopes inside. -/
theorem Reaches.packets (h : p.Reaches q) (hbare : ∀ e ∈ p.envelopes, Packet.AllBare e.packets) :
    q.envelopes.map Envelope.packets = p.envelopes.map Envelope.packets := by
  induction h with
  | start => rfl
  | @advance q _ ih =>
    have hkept : ∀ e ∈ q.envelopes, e.advance.packets = e.packets := by
      intro e he
      have hmem : e.packets ∈ p.envelopes.map Envelope.packets := ih ▸ List.mem_map_of_mem he
      obtain ⟨f, hf, hpackets⟩ := List.mem_map.mp hmem
      have hadvance := Packet.advanceAll_of_bare (hpackets ▸ hbare f hf)
      rw [Envelope.advance, hadvance, ite_self]
    rw [← ih, Protocol.advance, List.map_map]
    exact List.map_congr_left hkept
  | @eat q _ input ih => rw [map_envelopes_eat (fun _ _ => rfl) q input, ih]

/-- Without signatures and envelopes inside, the bytes of an envelope depend on its place alone. -/
theorem Reaches.getElem? (h : p.Reaches q) (hbare : ∀ e ∈ p.envelopes, Packet.AllBare e.packets)
    {i : Nat} {e : Envelope} (he : q.envelopes[i]? = some e) :
    ∃ f, p.envelopes[i]? = some f ∧ f.header.magic = e.header.magic ∧ f.packets = e.packets := by
  obtain ⟨f, hf, hreader⟩ := getElem?_congr h.readers he
  have hplace := congrArg (fun packets => packets[i]?) (h.packets hbare)
  simp only [List.getElem?_map, he, hf, Option.map_some, Option.some.injEq] at hplace
  exact ⟨f, hf, congrArg Reader.magic hreader, hplace.symm⟩

/-- A protocol stays lossless. -/
theorem Reaches.lossless (h : p.Reaches q)
    (hlossless : ∀ e ∈ p.envelopes, Packet.Lossless declared e.packets) :
    ∀ e ∈ q.envelopes, Packet.Lossless declared e.packets := by
  intro e he
  obtain ⟨i, hi⟩ := List.mem_iff_getElem?.mp he
  obtain ⟨f, hf, -, hpackets⟩ := h.getElem? (fun e he => (hlossless e he).bare) hi
  exact hpackets ▸ hlossless f (List.mem_of_getElem? hf)

/-- An envelope that was eaten and delivered is emitted as it was eaten, apart from padding. It
does not matter what is emitted or eaten before it comes due, as long as its cells are left
alone. -/
theorem emit_of_eat (hlossless : ∀ e ∈ p.envelopes, Packet.Lossless declared e.packets)
    {input : Bytes} {eaten : Eaten} (heat : (p.eat input).2 = .ok eaten) {cells : Cells}
    (hkinds : ∀ name, cells.kind? name = declared.kind? name) (hq : (p.eat input).1.Reaches q)
    {e : Envelope} (he : q.envelopes[eaten.envelope]? = some e) (hdue : e.isDue = true) :
    e.emit ((p.eat input).1.deliver eaten.envelope cells) =
      e.packet.unpadded (input.take eaten.consumed) := by
  obtain ⟨f, hf, -, -, hdecode, hwrites⟩ := eat_ok heat
  have hlossless' := hlossless f (List.mem_of_getElem? hf)
  -- The envelope that is emitted is the one that was eaten, as far as its bytes go.
  obtain ⟨f', hf', hmagic, hpackets⟩ :=
    (Reaches.trans (.eat .start input) hq).getElem? (fun e he => (hlossless e he).bare) he
  obtain rfl : f' = f := Option.some.inj (hf'.symm.trans hf)
  have hinverts := Envelope.inverts_of_decode hlossless'.bare hlossless'.exact hdecode
  have hbound : ∀ leaf ∈ f'.leaves, cells.kind? leaf.binding.cell = some leaf.kind := by
    intro leaf hleaf
    obtain ⟨c, hc, hkind⟩ := (hlossless'.bound leaf hleaf).cell
    rw [hkinds, Cells.kind?, hc, Option.map_some, hkind]
  have hheld := Leaf.held_replay_writes hinverts.carries
    (fun leaf hleaf => (hlossless'.bound leaf hleaf).writable) hlossless'.once hbound
  have hemit : e.emit ((p.eat input).1.deliver eaten.envelope cells) =
      e.header.magic ++ Packet.emitAll ((p.eat input).1.deliver eaten.envelope cells) e.packets :=
    if_pos hdue
  have hunpadded : e.packet.unpadded = f'.packet.unpadded := by
    funext bytes
    simp only [Envelope.packet, Packet.unpadded, hmagic, hpackets]
  rw [hemit, hunpadded, ← hmagic, ← hpackets, deliver_eq_replay, hwrites]
  exact hinverts.emits _ hheld

end Protocol

end DataLink
