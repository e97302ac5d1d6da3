import DataLink.Proofs.Parts

/-!
# Which documents are built

A layout is built of a document if and only if the document makes sense. Every function of the
builder succeeds exactly under the condition on its own part of the document. What is built has the
size that is described, and the keys in use are those described so far.
-/

namespace DataLink

namespace Layout

variable {c : Context}

/-- A signature is made of a nonce, a digest of at most 32 bytes and a key, none of them empty. -/
theorem signature_succeeds (nonceBytes digestBytes : Nat) (key : Bytes) (nonces : Keystream) :
    SucceedsIff (1 ≤ nonceBytes ∧ (1 ≤ digestBytes ∧ digestBytes ≤ 32) ∧ key ≠ [])
      (fun sig => sig.nonceBytes = nonceBytes ∧ sig.digestBytes = digestBytes)
      (Signature.new nonceBytes digestBytes key nonces) := by
  rw [← and_true (key ≠ [])]
  exact .guard fun _ => .guard fun _ => .guard fun _ => .ok ⟨rfl, rfl⟩

/-- A key that is not empty can be used if it is not in use. -/
theorem useKey_succeeds (s : Signing) {key : Bytes} (hkey : key ≠ []) :
    SucceedsIff (key ∉ s.keys) (fun s' => s'.keys = key :: s.keys) (s.useKey key) := by
  unfold Signing.useKey
  rw [if_neg hkey]
  split
  · next hused =>
    exact .congr (.error _) (iff_of_false id fun hnot => hnot (List.contains_iff_mem.mp hused))
  · next hused =>
    exact .congr (.ok rfl) (iff_of_true trivial fun hmem => hused (List.contains_iff_mem.mpr hmem))

/-- Hex is read exactly if it spells bytes. -/
theorem readHex_succeeds (text : String) :
    SucceedsIff (∃ bytes, hex? text = some bytes) (fun bytes => hex? text = some bytes)
      ((readHex text).mapError LayoutFault.config) := by
  refine SucceedsIff.mapError _ ?_
  unfold readHex hex?
  cases Hex.parse text with
  | ok bytes => exact .congr (.ok rfl) (iff_of_true trivial ⟨bytes, rfl⟩)
  | error fault => exact .congr (.error _) (iff_of_false id fun ⟨_, h⟩ => nomatch h)

/-- A packet is built exactly if its description makes sense and its keys can be taken into use. -/
def Builds (c : Context) (d : PacketDoc) : Prop :=
  ∀ s : Signing, SucceedsIff (d.WellFormed c.cells.kind? ∧ Unused s.keys d.keys)
    (fun built => built.1.size = d.size c.cells.kind? ∧ built.2.keys = d.keys.reverse ++ s.keys)
    (packet c d s)

/-- Packets are built exactly if their descriptions make sense and their keys can be taken into
use. -/
def AllBuild (c : Context) (ds : List PacketDoc) : Prop :=
  ∀ s : Signing,
    SucceedsIff (PacketDoc.AllWellFormed c.cells.kind? ds ∧ Unused s.keys (PacketDoc.allKeys ds))
      (fun built => Packet.totalSize built.1 = PacketDoc.totalSize c.cells.kind? ds ∧
        built.2.keys = (PacketDoc.allKeys ds).reverse ++ s.keys)
      (packets c ds s)

/-- A packet in front of others that are built is built with them. -/
theorem AllBuild.cons {d : PacketDoc} {rest : List PacketDoc} (h : Builds c d)
    (h' : AllBuild c rest) : AllBuild c (d :: rest) := by
  intro s
  rw [packets, PacketDoc.AllWellFormed, PacketDoc.allKeys, PacketDoc.totalSize, unused_append]
  refine ((h s).bind ?_).congr and_and_and_comm
  rintro ⟨p, s'⟩ ⟨hsize, hkeys⟩
  rw [← hkeys]
  refine ((h' s').bind fun others hothers => .ok ?_).congr (and_true _).to_iff
  constructor
  · rw [Packet.totalSize, hsize, hothers.1]
  · rw [hothers.2, hkeys, List.reverse_append, List.append_assoc]

/-- A signature takes its key into use before those of its packets. An empty key is passed over,
but then the signature itself is refused. -/
theorem Builds.signature {ds : List PacketDoc} (h : AllBuild c ds) (nonceBytes digestBytes : Nat)
    (keyText : String) : Builds c (.signature nonceBytes digestBytes keyText ds) := by
  intro s
  rw [packet, PacketDoc.WellFormed, PacketDoc.keys, PacketDoc.size]
  refine ((readHex_succeeds keyText).bind fun key hkey => ?_).congr (and_iff_right_of_imp ?_)
  · rw [hkey, Option.toList_some, List.singleton_append, unused_cons]
    by_cases hempty : key = []
    · refine .of_never ?_ ?_
      · intro built hbuilt
        obtain ⟨_, -, hbuilt⟩ := of_bind_ok hbuilt
        obtain ⟨_, -, hbuilt⟩ := of_bind_ok hbuilt
        obtain ⟨sig, hsig, -⟩ := of_bind_ok hbuilt
        have hcondition := (signature_succeeds _ _ _ _).iff.mp ⟨sig, of_mapError_ok hsig⟩
        exact hcondition.2.2 hempty
      · rintro ⟨⟨⟨-, -, -, bytes, hbytes, hne⟩, -⟩, -⟩
        exact hne (Option.some.inj hbytes ▸ hempty)
    · refine ((useKey_succeeds s hempty).bind
        (D := (PacketDoc.AllWellFormed c.cells.kind? ds ∧
            Unused (key :: s.keys) (PacketDoc.allKeys ds)) ∧
          (1 ≤ nonceBytes ∧ (1 ≤ digestBytes ∧ digestBytes ≤ 32) ∧ key ≠ []) ∧ True)
        fun s' hs' => ?_).congr ?_
      · rw [← hs']
        refine (h s').bind ?_
        rintro ⟨ps, s''⟩ ⟨hsize, hkeys⟩
        refine ((signature_succeeds _ _ _ _).mapError _).bind fun sig hsig => .ok ?_
        constructor
        · rw [Packet.size, hsig.1, hsig.2, hsize]
        · rw [hkeys, hs', List.reverse_cons, List.append_assoc, List.singleton_append]
      · constructor
        · rintro ⟨hkey, ⟨hpackets, hkeys⟩, ⟨hnonce, ⟨hpos, hle⟩, hne⟩, -⟩
          exact ⟨⟨⟨hnonce, hpos, hle, key, rfl, hne⟩, hpackets⟩, hkey, hkeys⟩
        · rintro ⟨⟨⟨hnonce, hpos, hle, -⟩, hpackets⟩, hkey, hkeys⟩
          exact ⟨hkey, ⟨hpackets, hkeys⟩, ⟨hnonce, ⟨hpos, hle⟩, hempty⟩, trivial⟩
  · rintro ⟨⟨⟨-, -, -, bytes, hbytes, -⟩, -⟩, -⟩
    exact ⟨bytes, hbytes⟩

mutual

/-- Every described packet is built exactly if it makes sense. -/
theorem builds (c : Context) : ∀ d : PacketDoc, Builds c d
  | .value d => by
    intro s
    rw [packet]
    refine ((field_succeeds c d).map fun f hf => ⟨hf, rfl⟩).congr ?_
    simp [PacketDoc.WellFormed, PacketDoc.keys, Unused]
  | .bitfield ds => by
    intro s
    rw [packet]
    refine ((sources_succeeds c ds).map fun sources hsources => ⟨hsources, rfl⟩).congr ?_
    simp [PacketDoc.WellFormed, PacketDoc.keys, Unused]
  | .sequence ds => by
    intro s
    rw [packet, PacketDoc.WellFormed, PacketDoc.keys, PacketDoc.size]
    exact (allBuild c ds s).map fun built hbuilt => hbuilt
  | .signature nonceBytes digestBytes keyText ds =>
    .signature (allBuild c ds) nonceBytes digestBytes keyText

/-- Described packets are built exactly if all of them make sense. -/
theorem allBuild (c : Context) : ∀ ds : List PacketDoc, AllBuild c ds
  | [] => by
    intro s
    rw [packets]
    exact .congr (.ok ⟨rfl, rfl⟩) (iff_of_true trivial ⟨trivial, .nil, fun _ hmem => nomatch hmem⟩)
  | d :: rest => .cons (builds c d) (allBuild c rest)

end

/-! ### Envelopes and documents -/

/-- What a described envelope demands on its own, without a look at the others. -/
structure EnvelopeDoc.Buildable (declared : String → Option CellKind) (d : EnvelopeDoc) : Prop where
  magic : ∃ bytes, hex? d.magic = some bytes ∧ bytes ≠ []
  cadence : 1 ≤ d.sendEvery.toNat
  packets : PacketDoc.AllWellFormed declared d.packets

/-- An envelope is as it is described, as far as others are concerned. -/
structure EnvelopeDoc.Describes (declared : String → Option CellKind) (d : EnvelopeDoc)
    (e : Envelope) : Prop where
  magic : hex? d.magic = some e.header.magic
  size : e.payloadSize = PacketDoc.totalSize declared d.packets

/-- An envelope is made exactly if its magic and the distance of its turns are not empty. -/
theorem envelope_succeeds (magic : Bytes) (sendEvery sendOffset : UInt64) (ps : List Packet) :
    SucceedsIff (magic ≠ [] ∧ 1 ≤ sendEvery.toNat)
      (fun e => e.header.magic = magic ∧ e.packets = ps)
      (Envelope.new magic sendEvery sendOffset ps) := by
  have hevery : 1 ≤ sendEvery.toNat ↔ sendEvery ≠ 0 := by
    rw [Nat.one_le_iff_ne_zero, Ne, Ne, ← UInt64.toNat_inj, UInt64.toNat_zero]
  rw [hevery, ← and_true (sendEvery ≠ 0)]
  refine SucceedsIff.map (P := fun header => header.magic = magic) ?_
    fun header hheader => ⟨hheader, rfl⟩
  exact .guard fun _ => .guard fun _ => .ok rfl

/-- Envelopes are built if each of them can be, and all keys can be taken into use. -/
theorem envelopes_succeeds (c : Context) (ds : List EnvelopeDoc) (s : Signing) :
    SucceedsIff
      ((∀ d ∈ ds, d.Buildable c.cells.kind?) ∧
        Unused s.keys (ds.flatMap fun d => PacketDoc.allKeys d.packets))
      (fun built => List.Forall₂ (EnvelopeDoc.Describes c.cells.kind?) ds built.1)
      (envelopes c ds s) := by
  induction ds generalizing s with
  | nil =>
    rw [envelopes]
    exact .congr (.ok .nil) (by simp [Unused])
  | cons d rest ih =>
    rw [envelopes, List.forall_mem_cons, List.flatMap_cons, unused_append]
    refine ((readHex_succeeds d.magic).bind
      (D := (PacketDoc.AllWellFormed c.cells.kind? d.packets ∧
          Unused s.keys (PacketDoc.allKeys d.packets)) ∧
        ((∃ bytes, hex? d.magic = some bytes ∧ bytes ≠ []) ∧ 1 ≤ d.sendEvery.toNat) ∧
        ((∀ d ∈ rest, d.Buildable c.cells.kind?) ∧
          Unused ((PacketDoc.allKeys d.packets).reverse ++ s.keys)
            (rest.flatMap fun d => PacketDoc.allKeys d.packets)) ∧ True)
      fun magic hmagic => ?_).congr ?_
    · have hparsed : (∃ bytes, hex? d.magic = some bytes ∧ bytes ≠ []) ↔ magic ≠ [] := by
        simp [hmagic]
      rw [hparsed]
      refine (allBuild c d.packets s).bind ?_
      rintro ⟨ps, s'⟩ ⟨hsize, hkeys⟩
      rw [← hkeys]
      refine ((envelope_succeeds _ _ _ _).mapError _).bind fun e he =>
        (ih s').bind fun others hothers => .ok (.cons ⟨?_, ?_⟩ hothers)
      · rw [hmagic, he.1]
      · rw [Envelope.payloadSize, he.2, hsize]
    · constructor
      · rintro ⟨-, ⟨hpackets, hkeys⟩, ⟨hmagic, hevery⟩, ⟨hrest, hunused⟩, -⟩
        exact ⟨⟨⟨hmagic, hevery, hpackets⟩, hrest⟩, hkeys, hunused⟩
      · rintro ⟨⟨⟨⟨bytes, hbytes, hne⟩, hevery, hpackets⟩, hrest⟩, hkeys, hunused⟩
        exact ⟨⟨bytes, hbytes⟩, ⟨hpackets, hkeys⟩, ⟨⟨bytes, hbytes, hne⟩, hevery⟩,
          ⟨hrest, hunused⟩, trivial⟩

/-- What holds of all descriptions holds of all that is described. -/
theorem forall_mem_iff_of_forall₂ {α β : Type} {R : α → β → Prop} {P : α → Prop} {Q : β → Prop}
    {as : List α} {bs : List β} (h : List.Forall₂ R as bs) (hPQ : ∀ a b, R a b → (P a ↔ Q b)) :
    (∀ a ∈ as, P a) ↔ ∀ b ∈ bs, Q b := by
  induction h with
  | nil => exact iff_of_true (fun _ hmem => nomatch hmem) fun _ hmem => nomatch hmem
  | cons hab _ ih => rw [List.forall_mem_cons, List.forall_mem_cons, hPQ _ _ hab, ih]

/-- What described envelopes demand together. -/
structure Document.Compatible (d : Document) : Prop where
  nonempty : d.envelopes ≠ []
  length : ∃ magicSize, ∀ e ∈ d.envelopes, ∃ bytes, hex? e.magic = some bytes ∧
    bytes.length = magicSize
  payload : ∀ e ∈ d.envelopes, 0 < PacketDoc.totalSize d.declared e.packets
  magics : (d.envelopes.map fun e => hex? e.magic).Nodup

/-- The magics that a document spells are those of the envelopes that it describes. -/
theorem map_hex?_of_describes {declared : String → Option CellKind} {ds : List EnvelopeDoc}
    {es : List Envelope} (h : List.Forall₂ (EnvelopeDoc.Describes declared) ds es) :
    (ds.map fun d => hex? d.magic) = (es.map fun e => e.header.magic).map some := by
  induction h with
  | nil => rfl
  | cons hde _ ih => rw [List.map_cons, List.map_cons, List.map_cons, hde.magic, ih]

/-- Envelopes make a protocol if their descriptions are compatible. -/
theorem protocol_succeeds {d : Document} {es : List Envelope}
    (h : List.Forall₂ (EnvelopeDoc.Describes d.declared) d.envelopes es) :
    SucceedsIff d.Compatible (fun _ => True) (Protocol.new es) := by
  refine ⟨?_, fun _ _ => trivial⟩
  have hnonempty : d.envelopes ≠ [] ↔ es ≠ [] := by
    rw [← List.length_pos_iff, ← List.length_pos_iff, h.length_eq]
  have hlength (size : Nat) :
      (∀ e ∈ d.envelopes, ∃ bytes, hex? e.magic = some bytes ∧ bytes.length = size) ↔
        ∀ e ∈ es, e.header.magic.length = size :=
    forall_mem_iff_of_forall₂ h fun e f hef => by simp [hef.magic]
  have hpayload : (∀ e ∈ d.envelopes, 0 < PacketDoc.totalSize d.declared e.packets) ↔
      ∀ e ∈ es, e.payloadSize ≠ 0 :=
    forall_mem_iff_of_forall₂ h fun e f hef => by rw [hef.size, Nat.pos_iff_ne_zero]
  have hmagics : (d.envelopes.map fun e => hex? e.magic).Nodup ↔
      (es.map fun e => e.header.magic).Nodup := by
    rw [map_hex?_of_describes h, List.nodup_map_iff (Option.some_injective _)]
  constructor
  · rintro ⟨p, hp⟩
    obtain ⟨rfl, hne, hall, hnodup⟩ := Protocol.new_eq_ok_iff.mp hp
    exact ⟨hnonempty.mpr hne, ⟨_, (hlength _).mpr fun e he => (hall e he).1⟩,
      hpayload.mpr fun e he => (hall e he).2, hmagics.mpr hnodup⟩
  · rintro ⟨hne, ⟨size, hsize⟩, hpositive, hnodup⟩
    have hlengths := (hlength size).mp hsize
    have hmagicSize : (⟨es⟩ : Protocol).magicSize = size := by
      obtain ⟨first, rest, rfl⟩ := List.exists_cons_of_ne_nil (hnonempty.mp hne)
      exact hlengths first List.mem_cons_self
    have hparts (e : Envelope) (he : e ∈ es) :
        e.header.magic.length = (⟨es⟩ : Protocol).magicSize ∧ e.payloadSize ≠ 0 :=
      ⟨hmagicSize ▸ hlengths e he, hpayload.mp hpositive e he⟩
    exact ⟨⟨es⟩, Protocol.new_eq_ok_iff.mpr ⟨rfl, hnonempty.mp hne, hparts, hmagics.mp hnodup⟩⟩

/-- What a document has to fulfil is what its envelopes demand on their own and together. -/
theorem wellFormed_iff {maxEnvelopes : Nat} {d : Document} :
    d.WellFormed maxEnvelopes ↔ d.envelopes.length ≤ maxEnvelopes ∧
      ((∀ e ∈ d.envelopes, e.Buildable d.declared) ∧
        (d.envelopes.flatMap fun e => PacketDoc.allKeys e.packets).Nodup) ∧ d.Compatible := by
  constructor
  · rintro ⟨⟨hsome, hmax⟩, ⟨size, hall⟩, hmagics, hkeys⟩
    refine ⟨hmax, ⟨fun e he => ?_, hkeys⟩, ?_, ⟨size, fun e he => ?_⟩,
      fun e he => (hall e he).payload, hmagics⟩
    · obtain ⟨⟨bytes, hbytes, hne, -⟩, hcadence, -, hpackets⟩ := hall e he
      exact ⟨⟨bytes, hbytes, hne⟩, hcadence, hpackets⟩
    · exact List.length_pos_iff.mp hsome
    · obtain ⟨bytes, hbytes, -, hlength⟩ := (hall e he).magic
      exact ⟨bytes, hbytes, hlength⟩
  · rintro ⟨hmax, ⟨hall, hkeys⟩, hsome, ⟨size, hsize⟩, hpayload, hmagics⟩
    refine ⟨⟨List.length_pos_iff.mpr hsome, hmax⟩, ⟨size, fun e he => ?_⟩, hmagics, hkeys⟩
    obtain ⟨⟨bytes, hbytes, hne⟩, hcadence, hpackets⟩ := hall e he
    obtain ⟨bytes', hbytes', hlength⟩ := hsize e he
    obtain rfl : bytes' = bytes := Option.some.inj (hbytes'.symm.trans hbytes)
    exact ⟨⟨bytes', hbytes, hne, hlength⟩, hcadence, hpayload e he, hpackets⟩

/-- A layout is built exactly of the documents that make sense. -/
theorem build_ok_iff_wellFormed (o : Options) (d : Document) :
    (∃ l, build o d = .ok l) ↔ d.WellFormed o.maxEnvelopes := by
  have hdeclared : (declareAll d.cells).kind? = d.declared := funext (kind?_declareAll d.cells)
  refine SucceedsIff.iff (P := fun _ => True) ?_
  unfold build
  rw [wellFormed_iff]
  by_cases hmany : o.maxEnvelopes < d.envelopes.length
  · simp only [if_pos hmany]
    refine (SucceedsIff.error (LayoutFault.tooManyEnvelopes _ _)).of_not id fun h => ?_
    exact Nat.not_le.mpr hmany h.1
  · simp only [if_neg hmany]
    rw [and_iff_right (Nat.not_lt.mp hmany)]
    have henvelopes (nonces : Nat → Keystream) :=
      envelopes_succeeds ⟨declareAll d.cells, o.readOnly, nonces⟩ d.envelopes .start
    simp only [hdeclared] at henvelopes
    refine ((henvelopes _).bind fun built hbuilt =>
      ((protocol_succeeds hbuilt).mapError _).bind fun p _ => .ok trivial).congr ?_
    rw [Signing.start, unused_nil_iff, and_true]

end Layout

end DataLink
