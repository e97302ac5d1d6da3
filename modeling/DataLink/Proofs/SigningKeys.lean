import DataLink.Proofs.LosslessLayout
import Mathlib.Data.List.Range

/-!
# Keys and nonces of a layout

The builder takes a signature's key into use before it builds the packets inside, and it counts the
signature after them. So keys come into use in the order in which signatures begin, and nonces are
handed out in the order in which they end. Either way no two signatures of a layout share a key or
a generator.
-/

namespace DataLink

namespace Packet

mutual

/-- The signatures of a packet, in the order in which they end. -/
def signatures : Packet → List Signature
  | .field _ => []
  | .bits _ => []
  | .sequence packets => allSignatures packets
  | .signature sig packets => allSignatures packets ++ [sig]
  | .envelope _ packets => allSignatures packets

/-- The signatures of packets in sequence. -/
def allSignatures : List Packet → List Signature
  | [] => []
  | p :: rest => p.signatures ++ allSignatures rest

end

end Packet

/-- The signatures of all envelopes, in the order in which they end. -/
def Protocol.signatures (p : Protocol) : List Signature :=
  p.envelopes.flatMap fun e => Packet.allSignatures e.packets

namespace Layout

/-- Seeds for so many signatures: the first one and those that follow it, modulo `2 ^ 64`. -/
def seedsFrom (seed : UInt64) (count : Nat) : List UInt64 :=
  (List.range count).map fun k => seed + UInt64.ofNat k

/-- Seeds do not repeat before they have gone round. -/
theorem nodup_seedsFrom (seed : UInt64) {count : Nat} (h : count ≤ 2 ^ 64) :
    (seedsFrom seed count).Nodup := by
  refine List.Nodup.map_on ?_ List.nodup_range
  intro j hj k hk hsame
  have hword : UInt64.ofNat j = UInt64.ofNat k := (UInt64.add_right_inj seed).mp hsame
  have hnat := congrArg UInt64.toNat hword
  rw [List.mem_range] at hj hk
  rw [UInt64.toNat_ofNat', UInt64.toNat_ofNat'] at hnat
  omega

example : seedsFrom 18446744073709551614 4 =
    [18446744073709551614, 18446744073709551615, 0, 1] := by decide

/-- Building adds signatures: their keys come into use, and they have the next generators. -/
structure Signing.Adds (nonces : Nat → Keystream) (s : Signing) (sigs : List Signature)
    (s' : Signing) : Prop where
  keys : s'.keys.Perm (sigs.map Signature.key ++ s.keys)
  unused : s.keys.Nodup → s'.keys.Nodup
  count : s'.count = s.count + sigs.length
  nonces : sigs.map Signature.nonces = (List.range' s.count sigs.length).map nonces

namespace Signing.Adds

variable {nonces : Nat → Keystream} {s s' s'' : Signing} {sigs sigs' : List Signature}

/-- What builds no signature adds none. -/
theorem nil (nonces : Nat → Keystream) (s : Signing) : s.Adds nonces [] s :=
  ⟨.refl _, id, rfl, rfl⟩

/-- Signatures that are built one after the other have generators one after the other. -/
theorem append (h : s.Adds nonces sigs s') (h' : s'.Adds nonces sigs' s'') :
    s.Adds nonces (sigs ++ sigs') s'' := by
  constructor
  · have hkeys := h'.keys.trans (h.keys.append_left _)
    rw [List.map_append, List.append_assoc]
    exact hkeys.trans (List.perm_append_comm_assoc _ _ _)
  · exact fun hnodup => h'.unused (h.unused hnodup)
  · rw [h'.count, h.count, List.length_append, Nat.add_assoc]
  · rw [List.map_append, h.nonces, h'.nonces, List.length_append, ← List.range'_append_1,
      List.map_append, h.count]

/-- A signature around others: its key was taken into use before theirs, its generator is the next
one after theirs. -/
theorem enclose {sig : Signature} (hfresh : sig.key ∉ s.keys)
    (h : Signing.Adds nonces { s with keys := sig.key :: s.keys } sigs s')
    (hnonces : sig.nonces = nonces s'.count) :
    s.Adds nonces (sigs ++ [sig]) { s' with count := s'.count + 1 } := by
  have hcount : s'.count = s.count + sigs.length := h.count
  constructor
  · rw [List.map_append, List.append_assoc]
    exact h.keys
  · intro hnodup
    exact h.unused (List.nodup_cons.mpr ⟨hfresh, hnodup⟩)
  · rw [List.length_append, List.length_singleton, hcount, Nat.add_assoc]
  · rw [List.map_append, h.nonces, List.length_append, ← List.range'_append_1, List.map_append,
      List.map_singleton, hnonces, hcount]
    rfl

end Signing.Adds

/-- What a new signature is made of. -/
theorem signature_eq_ok {nonceBytes digestBytes : Nat} {key : Bytes} {nonces : Keystream}
    {sig : Signature} (h : Signature.new nonceBytes digestBytes key nonces = .ok sig) :
    sig.key = key ∧ sig.nonces = nonces := by
  unfold Signature.new at h
  split at h
  · split at h
    · split at h
      · cases h
        exact ⟨rfl, rfl⟩
      · cases h
    · cases h
  · cases h

/-- A key that is not empty is taken into use only if it is not in use. -/
theorem useKey_eq_ok {s s' : Signing} {key : Bytes} (hkey : key ≠ [])
    (h : s.useKey key = .ok s') : key ∉ s.keys ∧ s' = { s with keys := key :: s.keys } := by
  rw [Signing.useKey, if_neg hkey] at h
  split at h
  · cases h
  · next hunused =>
    cases h
    exact ⟨fun hmem => hunused (List.contains_iff_mem.mpr hmem), rfl⟩

variable {c : Context}

mutual

/-- Building a packet adds its signatures. -/
theorem packet_adds : ∀ {d : PacketDoc} {s s' : Signing} {p : Packet},
    packet c d s = .ok (p, s') → s.Adds c.nonces p.signatures s'
  | .value d, s, s', p, h => by
    rw [packet] at h
    obtain ⟨f, -, heq⟩ := Packet.map_ok_iff.mp h
    cases heq
    exact .nil _ _
  | .bitfield ds, s, s', p, h => by
    rw [packet] at h
    obtain ⟨sources, -, heq⟩ := Packet.map_ok_iff.mp h
    cases heq
    exact .nil _ _
  | .sequence ds, s, s', p, h => by
    rw [packet] at h
    obtain ⟨⟨ps, _⟩, hps, heq⟩ := Packet.map_ok_iff.mp h
    cases heq
    rw [Packet.signatures]
    exact packets_adds hps
  | .signature nonceBytes digestBytes keyText ds, s, s', p, h => by
    rw [packet] at h
    obtain ⟨key, -, h⟩ := of_bind_ok h
    obtain ⟨opened, hopened, h⟩ := of_bind_ok h
    obtain ⟨⟨ps, closed⟩, hps, h⟩ := of_bind_ok h
    obtain ⟨sig, hsig, h⟩ := of_bind_ok h
    cases h
    obtain ⟨rfl, hnonces⟩ := signature_eq_ok (of_mapError_ok hsig)
    obtain ⟨hfresh, rfl⟩ := useKey_eq_ok sig.key_ne hopened
    rw [Packet.signatures]
    exact (packets_adds hps).enclose hfresh hnonces

/-- Building packets adds the signatures of each. -/
theorem packets_adds : ∀ {ds : List PacketDoc} {s s' : Signing} {ps : List Packet},
    packets c ds s = .ok (ps, s') → s.Adds c.nonces (Packet.allSignatures ps) s'
  | [], s, s', ps, h => by
    rw [packets] at h
    cases h
    exact .nil _ _
  | d :: rest, s, s', ps, h => by
    rw [packets] at h
    obtain ⟨⟨p, between⟩, hp, h⟩ := of_bind_ok h
    obtain ⟨⟨others, _⟩, hothers, h⟩ := of_bind_ok h
    cases h
    rw [Packet.allSignatures]
    exact (packet_adds hp).append (packets_adds hothers)

end

/-- Building envelopes adds the signatures of each. -/
theorem envelopes_adds {ds : List EnvelopeDoc} {s s' : Signing} {es : List Envelope}
    (h : envelopes c ds s = .ok (es, s')) :
    s.Adds c.nonces (es.flatMap fun e => Packet.allSignatures e.packets) s' := by
  induction ds generalizing s es with
  | nil =>
    cases h
    exact .nil _ _
  | cons d rest ih =>
    rw [envelopes] at h
    obtain ⟨magic, -, h⟩ := of_bind_ok h
    obtain ⟨⟨ps, between⟩, hps, h⟩ := of_bind_ok h
    obtain ⟨e, he, h⟩ := of_bind_ok h
    obtain ⟨⟨others, _⟩, hothers, h⟩ := of_bind_ok h
    cases h
    rw [List.flatMap_cons, packets_of_new (of_mapError_ok he)]
    exact (packets_adds hps).append (ih hothers)

/-- No two signatures of a layout share a key or a seed. Take any two signatures of any layout that
is built, in one envelope or in two, side by side or one inside the other: their keys are not empty,
and they differ. If the options or else the document set a seed, nonces come from that seed and
those that follow it, one for each signature, and these differ as long as there are fewer than
`2 ^ 64`, also if they go round. -/
theorem signatures_distinct {o : Options} {d : Document} {l : Layout} (h : build o d = .ok l) :
    (l.protocol.signatures.map Signature.key).Nodup ∧
    (∀ sig ∈ l.protocol.signatures, sig.key ≠ []) ∧
    ∀ seed, o.seed.or d.seed = some seed →
      l.protocol.signatures.map Signature.nonces =
        (seedsFrom seed l.protocol.signatures.length).map Keystream.ofSeed ∧
      (l.protocol.signatures.length < 2 ^ 64 →
        (seedsFrom seed l.protocol.signatures.length).Nodup) := by
  obtain ⟨-, s, henvelopes⟩ := build_eq_ok h
  have hadds : Signing.start.Adds (o.nonces d) l.protocol.signatures s :=
    envelopes_adds henvelopes
  refine ⟨?_, fun sig _ => sig.key_ne, ?_⟩
  · have hkeys := hadds.keys.nodup_iff.mp (hadds.unused List.nodup_nil)
    rw [Signing.start, List.append_nil] at hkeys
    exact hkeys
  · intro seed hseed
    refine ⟨?_, fun hfew => nodup_seedsFrom seed (Nat.le_of_lt hfew)⟩
    rw [hadds.nonces, Options.nonces, hseed, seedsFrom, List.map_map, List.range_eq_range']
    rfl

/-- Two envelopes with four signatures, of which the first holds two others. -/
def nestedDocument : Document :=
  { cells := [("alarm", .bool), ("level", .float)]
    envelopes :=
      [⟨"ab", 1, 0,
        [.signature 4 8 "01"
          [.signature 2 4 "0102" [.bitfield [⟨"alarm", none, false, none⟩]],
            .signature 2 4 "0201" [.value ⟨"level", 4, false, none, none⟩]]]⟩,
        ⟨"ac", 1, 0, [.signature 1 1 "02" [.value ⟨"level", 2, false, none, none⟩]]⟩]
    link := none
    seed := some 18446744073709551614 }

/-- The document's seed is the last but one, so seeds go round after two signatures. The two inner
ones are complete first. -/
theorem signatures_distinct_nested :
    ∃ l, build .default nestedDocument = .ok l ∧
      l.protocol.signatures.map Signature.key = [[1, 2], [2, 1], [1], [2]] ∧
      (l.protocol.signatures.map Signature.key).Nodup ∧
      (∀ sig ∈ l.protocol.signatures, sig.key ≠ []) ∧
      l.protocol.signatures.map Signature.nonces =
        (seedsFrom 18446744073709551614 4).map Keystream.ofSeed ∧
      (seedsFrom 18446744073709551614 4).Nodup := by
  obtain ⟨l, hbuild, hkeys⟩ : ∃ l, build .default nestedDocument = .ok l ∧
      l.protocol.signatures.map Signature.key = [[1, 2], [2, 1], [1], [2]] := ⟨_, rfl, rfl⟩
  obtain ⟨hnodup, hne, hseeds⟩ := signatures_distinct hbuild
  have hlength : l.protocol.signatures.length = 4 := by
    rw [← List.length_map (f := Signature.key), hkeys]
    rfl
  obtain ⟨hnonces, hdistinct⟩ := hseeds 18446744073709551614 rfl
  rw [hlength] at hnonces hdistinct
  exact ⟨l, hbuild, hkeys, hnodup, hne, hnonces, hdistinct (by decide)⟩

end Layout

end DataLink
