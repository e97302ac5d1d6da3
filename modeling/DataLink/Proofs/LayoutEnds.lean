import DataLink.Layout.Builder
import DataLink.Proofs.Agreement
import DataLink.Proofs.Mirror

/-!
# Two ends of one layout

One document gives a sender, which only reads its cells, and a receiver, which writes them.
Whatever the seeds of their nonces, both are built or neither is, and whatever the sender emits
arrives at the receiver.
-/

namespace DataLink

/-- Whether envelopes make a protocol is the same for both ends. -/
theorem Protocol.new_agree {declared : Cells} {es fs : List Envelope}
    (h : List.Forall₂ (Envelope.Mirrors declared) es fs) :
    Agree (fun p q => p = ⟨es⟩ ∧ q = ⟨fs⟩) (Protocol.new es) (Protocol.new fs) := by
  cases h with
  | nil => rfl
  | @cons e f es fs hef hrest =>
    have hsize : (⟨f :: fs⟩ : Protocol).magicSize = (⟨e :: es⟩ : Protocol).magicSize := by
      simp only [magicSize, hef.magic]
    have hall := List.Forall₂.cons hef hrest
    simp only [Protocol.new, verify, hsize, checkMagics_congr hall, checkSizes_congr hall]
    cases checkMagics (⟨e :: es⟩ : Protocol).magicSize [] (e :: es) with
    | error fault => rfl
    | ok _ =>
      cases checkSizes (⟨e :: es⟩ : Protocol).magicSize (e :: es) with
      | error fault => rfl
      | ok _ => exact ⟨rfl, rfl⟩

/-- The same field with another way to its cell. -/
def Field.rebind (b : Binding) : Field → Field
  | .signed f => .signed { f with binding := b }
  | .unsigned f => .unsigned { f with binding := b }
  | .float f => .float { f with binding := b }

/-- The same source with another way to its cell. -/
def BitSource.rebind (b : Binding) : BitSource → BitSource
  | .flag s => .flag { s with binding := b }
  | .digits s => .digits { s with binding := b }

/-- The way to the cell does not matter to what is staged. -/
theorem Field.echo_rebind (f : Field) (b : Binding) :
    (Leaf.field (f.rebind b)).echo = (Leaf.field f).echo := by
  cases f with
  | signed f => rfl
  | unsigned f => rfl
  | float f =>
    have hsame : ({ f with binding := b } : FloatField).echo = f.echo :=
      FloatField.echo_congr rfl rfl
    funext value
    rw [rebind, Leaf.echo, Leaf.echo, hsame]

/-- A field is mirrored by the one that writes to the same cell, declared with its kind. -/
theorem Field.mirrors_rebind {declared : Cells} (f : Field) {b : Binding}
    (hcell : b.cell = f.binding.cell) (hwritable : b.writable = true)
    (hdeclared : ∃ c, declared.get? b.cell = some c ∧ c.kind = f.kind) :
    f.Mirrors declared (f.rebind b) := by
  have hecho := f.echo_rebind b
  cases f <;> exact ⟨hcell, rfl, rfl, hecho, hwritable, hdeclared⟩

/-- A source is mirrored by the one that writes to the same cell, declared with its kind. -/
theorem BitSource.mirrors_rebind {declared : Cells} (s : BitSource) {b : Binding}
    (hcell : b.cell = s.binding.cell) (hwritable : b.writable = true)
    (hdeclared : ∃ c, declared.get? b.cell = some c ∧ c.kind = s.kind) :
    s.Mirrors declared (s.rebind b) := by
  cases s <;> exact ⟨hcell, rfl, rfl, rfl, hwritable, hdeclared⟩

namespace Layout

variable {c c' : Context}

/-- The kind of a cell does not depend on the end. -/
theorem kind_congr (hcells : c'.cells = c.cells) (cell : String) : c'.kind cell = c.kind cell := by
  rw [Context.kind, hcells, Context.kind]

/-- A kind is that of a declared cell. -/
theorem cell_of_kind {cell : String} {kind : CellKind} (h : c.kind cell = .ok kind) :
    ∃ found, c.cells.get? cell = some found ∧ found.kind = kind := by
  unfold Context.kind Cells.lookup at h
  cases hfound : c.cells.get? cell with
  | none =>
    rw [hfound] at h
    cases h
  | some found =>
    rw [hfound] at h
    exact ⟨found, rfl, Except.ok.inj h⟩

/-- A receiver's part writes its cell. -/
theorem binding_writable (hwrites : c'.readOnly = false) (cell : String) (retained : Bool) :
    (c'.binding cell retained).writable = true := by
  rw [Context.binding, hwrites, Bool.not_false]

/-- Both ends build one field. Only the way to its cell is their own. -/
theorem field_rebind (hcells : c'.cells = c.cells) (d : FieldDoc) :
    Agree (fun f g => f.binding = c.binding d.cell d.retained ∧ c.kind d.cell = .ok f.kind ∧
      g = f.rebind (c'.binding d.cell d.retained)) (field c d) (field c' d) := by
  unfold field
  rw [kind_congr hcells]
  refine .bind_same _ fun kind hkind => ?_
  by_cases hoffset : (d.offset.isSome && kind != .float) = true
  · simp only [if_pos hoffset]
    rfl
  · simp only [if_neg hoffset]
    cases kind with
    | bool => rfl
    | signed =>
      refine .bind_same _ fun value _ => ?_
      refine .bind_same _ fun width _ => ?_
      refine .mapError _ ?_
      unfold Field.ofSigned
      split
      · exact ⟨rfl, hkind, rfl⟩
      · rfl
    | unsigned =>
      refine .bind_same _ fun value _ => ?_
      refine .bind_same _ fun width _ => ?_
      refine .mapError _ ?_
      unfold Field.ofUnsigned
      split
      · exact ⟨rfl, hkind, rfl⟩
      · rfl
    | float =>
      refine .bind_same _ fun _ _ => ?_
      refine .bind_same _ fun width _ => ?_
      refine .mapError _ ?_
      unfold Field.ofFloat
      split
      · exact ⟨rfl, hkind, rfl⟩
      · rfl

/-- A bit source is built alike for both ends, but for the way to its cell. -/
theorem source_rebind (hcells : c'.cells = c.cells) (d : SourceDoc) :
    Agree (fun s t => s.binding = c.binding d.cell d.retained ∧ c.kind d.cell = .ok s.kind ∧
      t = s.rebind (c'.binding d.cell d.retained)) (source c d) (source c' d) := by
  unfold source
  rw [kind_congr hcells]
  refine .bind_same _ fun kind hkind => ?_
  cases kind with
  | bool =>
    by_cases hbits : d.bits.getD 1 ≠ 1
    · simp only [if_pos hbits]
      rfl
    · simp only [if_neg hbits]
      refine .bind_same _ fun value _ => ?_
      exact ⟨rfl, hkind, rfl⟩
  | unsigned =>
    refine .bind_same _ fun value _ => ?_
    refine .mapError _ ?_
    unfold BitSource.ofUnsigned
    split
    · split
      · exact ⟨rfl, hkind, rfl⟩
      · rfl
    · rfl
  | signed => rfl
  | float => rfl

/-- A field is built for both ends or for none, and the receiver's mirrors the sender's. -/
theorem field_agree (hcells : c'.cells = c.cells) (hwrites : c'.readOnly = false)
    (d : FieldDoc) : Agree (Field.Mirrors c.cells) (field c d) (field c' d) := by
  have hwritable := binding_writable hwrites d.cell d.retained
  refine (field_rebind hcells d).imp ?_
  rintro f g ⟨hbinding, hkind, rfl⟩
  exact f.mirrors_rebind (congrArg Binding.cell hbinding).symm hwritable (cell_of_kind hkind)

/-- A bit source is built for both ends or for none, and the receiver's mirrors the sender's. -/
theorem source_agree (hcells : c'.cells = c.cells) (hwrites : c'.readOnly = false)
    (d : SourceDoc) : Agree (BitSource.Mirrors c.cells) (source c d) (source c' d) := by
  have hwritable := binding_writable hwrites d.cell d.retained
  refine (source_rebind hcells d).imp ?_
  rintro s t ⟨hbinding, hkind, rfl⟩
  exact s.mirrors_rebind (congrArg Binding.cell hbinding).symm hwritable (cell_of_kind hkind)

/-- A signature is made for both ends or for none, whatever nonces they draw. -/
theorem signature_agree (nonceBytes digestBytes : Nat) (key : Bytes) (nonces nonces' : Keystream) :
    Agree Signature.Mirrors (Signature.new nonceBytes digestBytes key nonces)
      (Signature.new nonceBytes digestBytes key nonces') := by
  unfold Signature.new
  split
  · split
    · split
      · exact ⟨rfl, rfl, rfl⟩
      · rfl
    · rfl
  · rfl

mutual

/-- A described packet is built for both ends or for none. -/
theorem packet_agree (hcells : c'.cells = c.cells) (hwrites : c'.readOnly = false) :
    ∀ (d : PacketDoc) (s : Signing),
      Agree (fun a b => a.1.Mirrors c.cells b.1 ∧ a.2 = b.2) (packet c d s) (packet c' d s)
  | .value d, s => by
    rw [packet, packet]
    exact (field_agree hcells hwrites d).map fun f g hfg => ⟨.field hfg, rfl⟩
  | .bitfield ds, s => by
    rw [packet, packet]
    exact (Agree.mapM (source_agree hcells hwrites) ds).map fun ss ts hst => ⟨.bits hst, rfl⟩
  | .sequence ds, s => by
    rw [packet, packet]
    exact (packets_agree hcells hwrites ds s).map fun a b hab => ⟨.sequence hab.1, hab.2⟩
  | .signature nonceBytes digestBytes keyText ds, s => by
    rw [packet, packet]
    refine .bind_same _ fun key _ => .bind_same _ fun s _ => ?_
    refine (packets_agree hcells hwrites ds s).bind ?_
    rintro ⟨ps, s⟩ ⟨qs, s'⟩ ⟨hpackets, rfl⟩
    refine ((signature_agree nonceBytes digestBytes key _ _).mapError _).bind ?_
    intro sig sig' hsig
    exact ⟨.signature hsig hpackets, rfl⟩

/-- Packets are built for both ends or for none, and the receiver's mirror the sender's. -/
theorem packets_agree (hcells : c'.cells = c.cells) (hwrites : c'.readOnly = false) :
    ∀ (ds : List PacketDoc) (s : Signing),
      Agree (fun a b => Packet.AllMirror c.cells a.1 b.1 ∧ a.2 = b.2) (packets c ds s) (packets c' ds s)
  | [], s => ⟨.nil, rfl⟩
  | d :: rest, s => by
    rw [packets, packets]
    refine (packet_agree hcells hwrites d s).bind ?_
    rintro ⟨p, s⟩ ⟨q, s'⟩ ⟨hpacket, rfl⟩
    refine (packets_agree hcells hwrites rest s).bind ?_
    rintro ⟨ps, s⟩ ⟨qs, s'⟩ ⟨hpackets, rfl⟩
    exact ⟨.cons hpacket hpackets, rfl⟩

end

/-- Of packets that mirror each other, envelopes are made for both ends or for none. -/
theorem envelope_agree {declared : Cells} {ps qs : List Packet}
    (h : Packet.AllMirror declared ps qs) (magic : Bytes) (sendEvery sendOffset : UInt64) :
    Agree (Envelope.Mirrors declared) (Envelope.new magic sendEvery sendOffset ps)
      (Envelope.new magic sendEvery sendOffset qs) := by
  unfold Envelope.new
  cases Header.new magic sendEvery sendOffset with
  | error fault => rfl
  | ok header => exact ⟨rfl, h⟩

/-- Envelopes are built for both ends or for none, and the receiver's mirror the sender's. -/
theorem envelopes_agree (hcells : c'.cells = c.cells) (hwrites : c'.readOnly = false)
    (ds : List EnvelopeDoc) (s : Signing) :
    Agree (fun a b => List.Forall₂ (Envelope.Mirrors c.cells) a.1 b.1 ∧ a.2 = b.2)
      (envelopes c ds s) (envelopes c' ds s) := by
  induction ds generalizing s with
  | nil => exact ⟨.nil, rfl⟩
  | cons d rest ih =>
    rw [envelopes, envelopes]
    refine .bind_same _ fun magic _ => ?_
    refine (packets_agree hcells hwrites d.packets s).bind ?_
    rintro ⟨ps, s⟩ ⟨qs, s'⟩ ⟨hpackets, rfl⟩
    refine ((envelope_agree hpackets magic d.sendEvery d.sendOffset).mapError _).bind ?_
    intro e f hef
    refine (ih s).bind ?_
    rintro ⟨es, s⟩ ⟨fs, s'⟩ ⟨henvelopes, rfl⟩
    exact ⟨.cons hef henvelopes, rfl⟩

/-- The second layout is for a receiver of what the first one's sender emits. -/
structure Mirrors (l l' : Layout) : Prop where
  envelopes : List.Forall₂ (Envelope.Mirrors l'.cells) l.protocol.envelopes l'.protocol.envelopes
  distinct : l'.protocol.Distinct

/-- A layout is built for both ends or for none. -/
theorem build_agree {o o' : Options} (hmax : o'.maxEnvelopes = o.maxEnvelopes)
    (hwrites : o'.readOnly = false) (d : Document) :
    Agree Mirrors (build o d) (build o' d) := by
  unfold build
  rw [hmax]
  by_cases hmany : o.maxEnvelopes < d.envelopes.length
  · simp only [if_pos hmany]
    rfl
  · simp only [if_neg hmany]
    refine (envelopes_agree (by rfl) hwrites d.envelopes .start).bind ?_
    rintro ⟨es, s⟩ ⟨fs, s'⟩ ⟨henvelopes, rfl⟩
    refine ((Protocol.new_agree henvelopes).with_eq.mapError _).bind ?_
    rintro p q ⟨⟨rfl, rfl⟩, hnew⟩
    exact ⟨henvelopes, Protocol.distinct_of_new hnew⟩

/-- A layout that is built does not depend on how many envelopes are allowed. -/
theorem build_of_maxEnvelopes {o : Options} {d : Document} {l : Layout} (h : build o d = .ok l)
    {limit : Nat} (hlimit : d.envelopes.length ≤ limit) :
    build { o with maxEnvelopes := limit } d = .ok l := by
  unfold build at h ⊢
  by_cases hmany : o.maxEnvelopes < d.envelopes.length
  · simp only [if_pos hmany] at h
    cases h
  · simp only [if_neg hmany] at h
    simp only [if_neg (Nat.not_lt.mpr hlimit)]
    exact h

/-- No layout is built with more envelopes than the options allow. -/
theorem length_le_of_build {o : Options} {d : Document} {l : Layout} (h : build o d = .ok l) :
    d.envelopes.length ≤ o.maxEnvelopes := by
  unfold build at h
  by_cases hmany : o.maxEnvelopes < d.envelopes.length
  · simp only [if_pos hmany] at h
    cases h
  · exact Nat.not_lt.mp hmany

/-- Whatever else they differ in, two layouts of one document mirror each other if the second
one writes its cells. -/
theorem mirrors_of_build {o o' : Options} {d : Document} {l l' : Layout} (h : build o d = .ok l)
    (h' : build o' d = .ok l') (hwrites : o'.readOnly = false) : l.Mirrors l' := by
  have hsame := build_of_maxEnvelopes h (length_le_of_build h')
  have hagree := @build_agree { o with maxEnvelopes := o'.maxEnvelopes } o' rfl hwrites d
  rw [hsame, h'] at hagree
  exact hagree

/-- The same options for one end of a link, which starts its nonces as it likes. -/
def Options.role (o : Options) (readOnly : Bool) (seed : Option UInt64) (entropy : Entropy) :
    Options := { o with readOnly, seed, entropy }

/-- What the receiver makes of what the sender emits on a turn, when the sender's cells and those
found at the receiver hold anything. -/
structure RoundTrip (declared : Cells) (sender receiver : Protocol) (cells found : Cells)
    (r : Reception) : Prop where
  /-- The due envelopes are eaten in declaration order, -/
  eaten : r.eaten = sender.due.map fun e => ⟨e.2, e.1.size⟩
  /-- without a fault, -/
  fault : r.fault = none
  /-- and nothing is left. -/
  rest : r.rest = []
  /-- Every cell undergoes the assignments that the leaves bound to it make, in wire order. -/
  bound : ∀ name, r.cells.get? name = (found.get? name).map fun c =>
    ((receiver.relays sender cells).filter fun w => w.cell = name).foldl
      (fun c w => c.put w.value) c
  /-- Assignments are to declared cells and of their kinds. -/
  typed : ∀ w ∈ receiver.relays sender cells, ∃ c, declared.get? w.cell = some c ∧
    ∀ v, w.value = some v → v.kind = c.kind
  /-- Cells that no due envelope carries stay as they are. -/
  unbound : ∀ name,
    (∀ e ∈ sender.due, ∀ leaf ∈ receiver.leavesAt e.2, leaf.binding.cell ≠ name) →
      r.cells.get? name = found.get? name

/-- On every turn what one end emits arrives at the other as it should, whatever was sent before. -/
theorem Mirrors.roundTrip {l l' : Layout} (h : l.Mirrors l') {sender receiver : Protocol}
    (hsender : l.protocol.Reaches sender) (hreceiver : l'.protocol.Reaches receiver)
    (cells found : Cells) :
    RoundTrip l'.cells sender receiver cells found
      (receiver.receive (sender.emit cells).length found (sender.emit cells)) := by
  have hmirrors : sender.Mirrors receiver :=
    (Protocol.mirrors_of_forall₂ h.envelopes).congr hsender.readers.symm hreceiver.readers.symm
  have hplain := hsender.plain (Protocol.plain_of_mirrors h.envelopes)
  have hdistinct := h.distinct.congr hreceiver.readers.symm
  have hreplay := found.get?_replay (receiver.relays sender cells)
  -- Every assignment is one of a leaf of the receiver's layout.
  have hmem : ∀ w ∈ receiver.relays sender cells, ∃ e ∈ sender.due, ∃ leaf ∈ receiver.leavesAt e.2,
      w = ⟨leaf.binding.cell, leaf.arrival (cells.value? leaf.binding.cell)⟩ := by
    intro w hw
    obtain ⟨e, he, hw⟩ := List.mem_flatMap.mp hw
    obtain ⟨leaf, hleaf, hw⟩ := List.mem_flatMap.mp hw
    exact ⟨e, he, leaf, hleaf, Leaf.eq_of_mem_relays hw⟩
  rw [Protocol.receive_emit hdistinct hplain hmirrors cells found]
  refine ⟨rfl, rfl, rfl, hreplay, ?_, ?_⟩
  · intro w hw
    obtain ⟨e, -, leaf, hleaf, rfl⟩ := hmem w hw
    rw [Protocol.leavesAt_congr hreceiver.readers] at hleaf
    obtain ⟨c, hc, hkind⟩ := (Protocol.bound_of_mirrors h.envelopes hleaf).cell
    refine ⟨c, hc, ?_⟩
    intro v hv
    rw [Leaf.kind_arrival hv, hkind]
  · intro name hunbound
    have hnone : (receiver.relays sender cells).filter (fun w => w.cell = name) = [] := by
      rw [List.filter_eq_nil_iff]
      intro w hw hname
      obtain ⟨e, he, leaf, hleaf, rfl⟩ := hmem w hw
      exact hunbound e he leaf hleaf (of_decide_eq_true hname)
    rw [hreplay, hnone]
    cases found.get? name <;> rfl

/-- What one end of a layout emits, the other end takes in. If a document is accepted at all,
both ends are built from it, whatever their seeds. Whatever both ends have emitted and eaten
before, and whatever the cells hold, the round trip succeeds. -/
theorem build_round_trip {o : Options} {d : Document} {l : Layout} (h : build o d = .ok l)
    (seed seed' : Option UInt64) (entropy entropy' : Entropy) :
    ∃ tx rx, build (o.role true seed entropy) d = .ok tx ∧
      build (o.role false seed' entropy') d = .ok rx ∧
      ∀ sender receiver, tx.protocol.Reaches sender → rx.protocol.Reaches receiver →
        ∀ cells found, RoundTrip rx.cells sender receiver cells found
          (receiver.receive (sender.emit cells).length found (sender.emit cells)) := by
  have hagree (o o' : Options) (hmax : o'.maxEnvelopes = o.maxEnvelopes)
      (hwrites : o'.readOnly = false) : Agree Mirrors (build o d) (build o' d) :=
    build_agree hmax hwrites d
  obtain ⟨rx, hrx, -⟩ := (hagree o (o.role false seed' entropy') rfl rfl).of_left h
  obtain ⟨tx, htx, hends⟩ :=
    (hagree (o.role true seed entropy) (o.role false seed' entropy') rfl rfl).of_right hrx
  refine ⟨tx, rx, htx, hrx, ?_⟩
  intro sender receiver hsender hreceiver cells found
  exact hends.roundTrip hsender hreceiver cells found

/-- A signed float in one envelope. -/
def sealedDocument : Document :=
  { cells := [("level", .float)]
    envelopes := [⟨"ab", 1, 0, [.signature 4 8 "0102" [.value ⟨"level", 4, false, none, none⟩]]⟩]
    link := none
    seed := none }

/-- A signed float arrives on the sender's second turn. -/
theorem build_round_trip_sealed :
    ∃ tx rx, build (Options.default.role true (some 1) 0) sealedDocument = .ok tx ∧
      build (Options.default.role false (some 2) 0) sealedDocument = .ok rx ∧
      RoundTrip rx.cells tx.protocol.advance rx.protocol
        (tx.cells.put "level" (some (.float .one))) rx.cells
        (rx.protocol.receive
          (tx.protocol.advance.emit (tx.cells.put "level" (some (.float .one)))).length rx.cells
          (tx.protocol.advance.emit (tx.cells.put "level" (some (.float .one))))) := by
  have haccept : ∃ l, build .default sealedDocument = .ok l := ⟨_, rfl⟩
  obtain ⟨l, haccept⟩ := haccept
  obtain ⟨tx, rx, htx, hrx, h⟩ := build_round_trip haccept (some 1) (some 2) 0 0
  exact ⟨tx, rx, htx, hrx, h _ _ (.advance .start) .start _ _⟩

end Layout

end DataLink
