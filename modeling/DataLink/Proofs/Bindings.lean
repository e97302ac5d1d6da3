import DataLink.Proofs.LayoutEnds
import DataLink.Proofs.Loading

/-!
# Leaves of two ends

Two ends of one layout have the same leaves in the same order, whatever else they differ in:
leaves of the same cells, for which the same arrives. Whether they write their cells is up to
each end, so one that only reads them clears none of them on failsafe.
-/

namespace DataLink

/-- Two leaves have one cell, and the same arrives for both. -/
structure Leaf.Alike (a b : Leaf) : Prop where
  kind : b.kind = a.kind
  cell : b.binding.cell = a.binding.cell
  retained : b.binding.retained = a.binding.retained
  arrival : b.arrival = a.arrival

/-- Leaves that are alike make the same assignments at the receiver. -/
theorem Leaf.Alike.relays {a b : Leaf} (h : a.Alike b) (cells : Cells) :
    b.relays cells = a.relays cells := by
  simp only [Leaf.relays, h.cell, h.retained, h.arrival]

/-- A field arrives alike whatever its way to the cell. -/
theorem Field.alike_rebind (f : Field) {b : Binding} (hcell : b.cell = f.binding.cell)
    (hretained : b.retained = f.binding.retained) :
    (Leaf.field f).Alike (.field (f.rebind b)) := by
  have harrival : (Leaf.field (f.rebind b)).arrival = (Leaf.field f).arrival := by
    funext sent
    rw [Leaf.arrival_eq, Leaf.arrival_eq, f.echo_rebind]
    cases f <;> rfl
  cases f <;> exact ⟨rfl, hcell, hretained, harrival⟩

/-- A source arrives alike whatever its way to the cell. -/
theorem BitSource.alike_rebind (s : BitSource) {b : Binding} (hcell : b.cell = s.binding.cell)
    (hretained : b.retained = s.binding.retained) :
    (Leaf.source s).Alike (.source (s.rebind b)) := by
  cases s <;> exact ⟨rfl, hcell, hretained, rfl⟩

/-- Leaves that are alike assign the same. -/
theorem Leaf.relays_of_alike {first second : List Leaf} (h : List.Forall₂ Alike first second)
    (cells : Cells) :
    (second.flatMap fun leaf => leaf.relays cells) =
      first.flatMap fun leaf => leaf.relays cells := by
  induction h with
  | nil => rfl
  | cons hleaf _ ih => rw [List.flatMap_cons, List.flatMap_cons, hleaf.relays, ih]

/-- No leaf of the protocol writes its cell. -/
def Protocol.ReadsOnly (p : Protocol) : Prop :=
  ∀ e ∈ p.envelopes, ∀ leaf ∈ e.leaves, leaf.binding.writable = false

/-- An end that only reads its cells clears none. -/
theorem Protocol.ReadsOnly.clearings {p : Protocol} (h : p.ReadsOnly) : p.clearings = [] := by
  refine List.flatMap_eq_nil_iff.mpr fun e he => List.flatMap_eq_nil_iff.mpr fun leaf hleaf => ?_
  have hreads := h e he leaf hleaf
  simp only [Leaf.clearings, Binding.clearings, Binding.writes, hreads, Bool.false_eq_true,
    if_false, ite_self]

namespace Layout

variable {c c' : Context} {R : Leaf → Leaf → Prop}

mutual

/-- The leaves of packets are related in wire order if fields and sources are. -/
theorem packet_leaves
    (hfield : ∀ d, Agree (fun f g => R (.field f) (.field g)) (field c d) (field c' d))
    (hsource : ∀ d, Agree (fun s t => R (.source s) (.source t)) (source c d) (source c' d)) :
    ∀ (d : PacketDoc) (s : Signing),
      Agree (fun a b => List.Forall₂ R a.1.leaves b.1.leaves ∧ a.2 = b.2)
        (packet c d s) (packet c' d s)
  | .value d, s => by
    rw [packet, packet]
    exact (hfield d).map fun f g hfg => ⟨.cons hfg .nil, rfl⟩
  | .bitfield ds, s => by
    rw [packet, packet]
    refine (Agree.mapM hsource ds).map fun ss ts hst => ⟨?_, rfl⟩
    rw [Packet.leaves, Packet.leaves]
    exact List.forall₂_map_left_iff.mpr (List.forall₂_map_right_iff.mpr hst)
  | .sequence ds, s => by
    rw [packet, packet]
    refine (packets_leaves hfield hsource ds s).map fun a b hab => ⟨?_, hab.2⟩
    rw [Packet.leaves, Packet.leaves]
    exact hab.1
  | .signature nonceBytes digestBytes keyText ds, s => by
    rw [packet, packet]
    refine .bind_same _ fun key _ => .bind_same _ fun s _ => ?_
    refine (packets_leaves hfield hsource ds s).bind ?_
    rintro ⟨ps, s⟩ ⟨qs, s'⟩ ⟨hleaves, rfl⟩
    refine ((signature_agree nonceBytes digestBytes key _ _).mapError _).bind ?_
    intro sig sig' _
    refine ⟨?_, rfl⟩
    rw [Packet.leaves, Packet.leaves]
    exact hleaves

/-- The leaves of packets in sequence are related if fields and sources are. -/
theorem packets_leaves
    (hfield : ∀ d, Agree (fun f g => R (.field f) (.field g)) (field c d) (field c' d))
    (hsource : ∀ d, Agree (fun s t => R (.source s) (.source t)) (source c d) (source c' d)) :
    ∀ (ds : List PacketDoc) (s : Signing),
      Agree (fun a b => List.Forall₂ R (Packet.allLeaves a.1) (Packet.allLeaves b.1) ∧ a.2 = b.2)
        (packets c ds s) (packets c' ds s)
  | [], s => ⟨.nil, rfl⟩
  | d :: rest, s => by
    rw [packets, packets]
    refine (packet_leaves hfield hsource d s).bind ?_
    rintro ⟨p, s⟩ ⟨q, s'⟩ ⟨hfirst, rfl⟩
    refine (packets_leaves hfield hsource rest s).bind ?_
    rintro ⟨ps, s⟩ ⟨qs, s'⟩ ⟨hothers, rfl⟩
    exact ⟨List.rel_append hfirst hothers, rfl⟩

end

/-- The leaves of envelopes are related place by place if fields and sources are. -/
theorem envelopes_leaves
    (hfield : ∀ d, Agree (fun f g => R (.field f) (.field g)) (field c d) (field c' d))
    (hsource : ∀ d, Agree (fun s t => R (.source s) (.source t)) (source c d) (source c' d))
    (ds : List EnvelopeDoc) (s : Signing) :
    Agree (fun a b => List.Forall₂ (fun e f => List.Forall₂ R e.leaves f.leaves) a.1 b.1 ∧
      a.2 = b.2) (envelopes c ds s) (envelopes c' ds s) := by
  induction ds generalizing s with
  | nil => exact ⟨.nil, rfl⟩
  | cons d rest ih =>
    rw [envelopes, envelopes]
    refine .bind_same _ fun magic _ => ?_
    refine (packets_leaves hfield hsource d.packets s).bind ?_
    rintro ⟨ps, s⟩ ⟨qs, s'⟩ ⟨hleaves, rfl⟩
    have hnew : Agree (fun e f => List.Forall₂ R e.leaves f.leaves)
        (Envelope.new magic d.sendEvery d.sendOffset ps)
        (Envelope.new magic d.sendEvery d.sendOffset qs) := by
      unfold Envelope.new
      cases Header.new magic d.sendEvery d.sendOffset with
      | error fault => rfl
      | ok header => exact hleaves
    refine (hnew.mapError _).bind ?_
    intro e f hef
    refine (ih s).bind ?_
    rintro ⟨es, s⟩ ⟨fs, s'⟩ ⟨henvelopes, rfl⟩
    exact ⟨.cons hef henvelopes, rfl⟩

/-- Leaves of two ends, the first of which writes its cells or only reads them. -/
structure Counterparts (readOnly : Bool) (a b : Leaf) : Prop where
  alike : a.Alike b
  writable : a.binding.writable = !readOnly

/-- A described field becomes counterparts at both ends. -/
theorem field_counterparts (hcells : c'.cells = c.cells) (d : FieldDoc) :
    Agree (fun f g => Counterparts c.readOnly (.field f) (.field g))
      (field c d) (field c' d) := by
  refine (field_rebind hcells d).imp ?_
  rintro f g ⟨hbinding, -, rfl⟩
  exact ⟨f.alike_rebind (congrArg Binding.cell hbinding).symm
    (congrArg Binding.retained hbinding).symm, congrArg Binding.writable hbinding⟩

/-- A described source becomes counterparts at both ends. -/
theorem source_counterparts (hcells : c'.cells = c.cells) (d : SourceDoc) :
    Agree (fun s t => Counterparts c.readOnly (.source s) (.source t))
      (source c d) (source c' d) := by
  refine (source_rebind hcells d).imp ?_
  rintro s t ⟨hbinding, -, rfl⟩
  exact ⟨s.alike_rebind (congrArg Binding.cell hbinding).symm
    (congrArg Binding.retained hbinding).symm, congrArg Binding.writable hbinding⟩

/-- What building a document depends on. -/
def Options.context (o : Options) (d : Document) : Context :=
  ⟨declareAll d.cells, o.readOnly, o.nonces d⟩

/-- What a layout that is built is made of. -/
theorem build_eq_ok {o : Options} {d : Document} {l : Layout} (h : build o d = .ok l) :
    l.cells = declareAll d.cells ∧
      ∃ s, envelopes (o.context d) d.envelopes .start = .ok (l.protocol.envelopes, s) := by
  unfold build at h
  by_cases hmany : o.maxEnvelopes < d.envelopes.length
  · simp only [if_pos hmany] at h
    cases h
  · simp only [if_neg hmany] at h
    obtain ⟨⟨es, s⟩, hes, h⟩ := of_bind_ok h
    obtain ⟨p, hp, h⟩ := of_bind_ok h
    obtain ⟨rfl, -⟩ := Protocol.new_eq_ok_iff.mp (of_mapError_ok hp)
    cases h
    exact ⟨rfl, s, hes⟩

/-- Two layouts of one document have the same leaves, as far as bindings to cells go. -/
theorem counterparts_of_build {o o' : Options} {d : Document} {l l' : Layout}
    (h : build o d = .ok l) (h' : build o' d = .ok l') :
    List.Forall₂ (fun e f => List.Forall₂ (Counterparts o.readOnly) e.leaves f.leaves)
      l.protocol.envelopes l'.protocol.envelopes := by
  obtain ⟨-, s, henvelopes⟩ := build_eq_ok h
  obtain ⟨-, s', henvelopes'⟩ := build_eq_ok h'
  have hfield := @field_counterparts (o.context d) (o'.context d) rfl
  have hagree := envelopes_leaves hfield (source_counterparts rfl) d.envelopes .start
  rw [henvelopes, henvelopes'] at hagree
  exact hagree.1

/-- A layout built to only read its cells writes none of them. -/
theorem readsOnly_of_build {o : Options} {d : Document} {l : Layout} (h : build o d = .ok l)
    (hreads : o.readOnly = true) : l.protocol.ReadsOnly := by
  have hleaves := (counterparts_of_build h h).imp fun e f hef =>
    hef.imp fun a b hab => And.intro (hab.writable.trans (congrArg not hreads)) hab
  have hunwritten := hleaves.imp fun e f hef => And.intro ((List.forall₂_and_left _ _).mp hef).1 hef
  exact ((List.forall₂_and_left _ _).mp hunwritten).1

/-- Two ends of one layout, the first of which only reads its cells. -/
structure Ends (tx rx : Layout) : Prop where
  mirrors : tx.Mirrors rx
  alike : ∀ place,
    List.Forall₂ Leaf.Alike (tx.protocol.leavesAt place) (rx.protocol.leavesAt place)
  unwritten : tx.protocol.clearings = []

/-- Layouts of one document are two ends if the first one only reads and the second one writes. -/
theorem ends_of_build {o o' : Options} {d : Document} {tx rx : Layout} (h : build o d = .ok tx)
    (h' : build o' d = .ok rx) (hreads : o.readOnly = true) (hwrites : o'.readOnly = false) :
    tx.Ends rx := by
  have hleaves := counterparts_of_build h h'
  refine ⟨mirrors_of_build h h' hwrites, ?_, (readsOnly_of_build h hreads).clearings⟩
  intro place
  unfold Protocol.leavesAt
  rcases lt_or_ge place tx.protocol.envelopes.length with hplace | hplace
  · have hplace' : place < rx.protocol.envelopes.length := hleaves.length_eq ▸ hplace
    have hat := hleaves.get hplace hplace'
    rw [List.getElem?_eq_getElem hplace, List.getElem?_eq_getElem hplace']
    exact hat.imp fun _ _ => Counterparts.alike
  · have hplace' : rx.protocol.envelopes.length ≤ place := hleaves.length_eq ▸ hplace
    rw [List.getElem?_eq_none hplace, List.getElem?_eq_none hplace']
    exact .nil

/-- Two layouts loaded from one file are built from one document. -/
theorem build_of_load {o o' : Options} {path : String} {file : FileState} {l l' : Layout}
    (h : load o path file = .ok l) (h' : load o' path file = .ok l')
    (hlimit : o'.maxFileBytes = o.maxFileBytes) : ∃ d, build o d = .ok l ∧ build o' d = .ok l' := by
  cases file with
  | unopened fault => cases h
  | notRegular => cases h
  | file length content =>
    simp only [load, loadWith] at h h'
    rw [hlimit] at h'
    split at h
    · cases h
    · next hlength =>
      rw [if_neg hlength] at h'
      cases htext : readLimited o.maxFileBytes content with
      | error fault => cases fault <;> simp only [htext, reduceCtorEq] at h
      | ok text =>
        simp only [htext, ofText] at h h'
        cases hdocument : Document.ofText text with
        | error fault => simp only [hdocument, reduceCtorEq] at h
        | ok d =>
          simp only [hdocument] at h h'
          exact ⟨d, h, h'⟩

/-- A file that holds a text within the limit is read as this text. -/
theorem load_text {o : Options} {path text : String} (h : text.utf8ByteSize ≤ o.maxFileBytes) :
    load o path (.file text.utf8ByteSize text.toUTF8) = ofText o text :=
  reads_of_le h h rfl (ofText o)

end Layout

end DataLink
