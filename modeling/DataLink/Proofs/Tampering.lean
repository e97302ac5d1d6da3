import DataLink.Proofs.Transmission

/-!
# Tampering

A signature guards its bytes: whoever changes some of them and is still heard has found two
messages of one length that the truncated digest cannot tell apart. The digest is a black box
here. Signatures may nest, so first it is said which bytes each of them guards.
-/

namespace DataLink

namespace Bytes

/-- The second string has the length of the first one and agrees with it outside a range of
places. -/
structure SameOutside (start stop : Nat) (w w' : Bytes) : Prop where
  length : w'.length = w.length
  get : ∀ i, ¬ (start ≤ i ∧ i < stop) → w'[i]? = w[i]?

/-- Some bytes from a place on. -/
def slice (bytes : Bytes) (start count : Nat) : Bytes := (bytes.drop start).take count

/-- A part of what follows a place is a part of the whole, that much further on. -/
theorem slice_drop (bytes : Bytes) (n start count : Nat) :
    slice (bytes.drop n) start count = slice bytes (n + start) count := by
  rw [slice, List.drop_drop, slice]

/-- What lies within the first bytes does not depend on the others. -/
theorem slice_take (bytes : Bytes) {n start count : Nat} (h : start + count ≤ n) :
    slice (bytes.take n) start count = slice bytes start count := by
  rw [slice, List.drop_take, List.take_take, Nat.min_eq_left (by omega), slice]

/-- Strings of one length have parts of one length. -/
theorem length_slice_congr {w w' : Bytes} (h : w'.length = w.length) (start count : Nat) :
    (slice w' start count).length = (slice w start count).length := by
  simp only [slice, List.length_take, List.length_drop, h]

namespace SameOutside

variable {start stop : Nat} {w w' : Bytes}

/-- Outside the range, slices agree. -/
theorem slice_eq (h : SameOutside start stop w w') {from' count : Nat}
    (hout : from' + count ≤ start ∨ stop ≤ from') : slice w' from' count = slice w from' count := by
  apply List.ext_getElem?
  intro i
  simp only [slice, List.getElem?_take, List.getElem?_drop]
  by_cases hi : i < count
  · rw [if_pos hi, if_pos hi, h.get]
    omega
  · rw [if_neg hi, if_neg hi]

/-- Strings that agree within the range as well are equal. -/
theorem eq_of_slices (h : SameOutside start stop w w')
    (hin : slice w' start (stop - start) = slice w start (stop - start)) : w' = w := by
  apply List.ext_getElem?
  intro i
  by_cases hi : start ≤ i ∧ i < stop
  · have hget := congrArg (fun bytes : Bytes => bytes[i - start]?) hin
    have hplace : start + (i - start) = i := by omega
    simp only [slice, List.getElem?_take, List.getElem?_drop, hplace] at hget
    rwa [if_pos (by omega), if_pos (by omega)] at hget
  · exact h.get i hi

/-- Changing one byte of the range changes nothing outside it. -/
theorem set {i : Nat} (hstart : start ≤ i) (hstop : i < stop) (b : UInt8) :
    SameOutside start stop w (w.set i b) := by
  refine ⟨List.length_set, ?_⟩
  intro j hj
  have hne : i ≠ j := by
    intro heq
    omega
  exact List.getElem?_set_ne hne

end SameOutside

end Bytes

/-- A signature at its place in the bytes of a packet. -/
structure Seal where
  /-- Where its nonce begins. -/
  start : Nat
  signature : Signature
  /-- What it wraps. -/
  packets : List Packet

namespace Seal

/-- The same signature behind so many more bytes. -/
def shift (s : Seal) (n : Nat) : Seal := { s with start := n + s.start }

/-- Where the wrapped bytes begin. -/
def payloadStart (s : Seal) : Nat := s.start + s.signature.nonceBytes

/-- Where the digest begins. -/
def digestStart (s : Seal) : Nat := s.payloadStart + Packet.totalSize s.packets

/-- The place behind the digest. -/
def stop (s : Seal) : Nat := s.digestStart + s.signature.digestBytes

/-- The nonce in some bytes. -/
def nonce (s : Seal) (w : Bytes) : Bytes := w.slice s.start s.signature.nonceBytes

/-- The wrapped bytes. -/
def payload (s : Seal) (w : Bytes) : Bytes := w.slice s.payloadStart (Packet.totalSize s.packets)

/-- The digest that was received. -/
def received (s : Seal) (w : Bytes) : Bytes := w.slice s.digestStart s.signature.digestBytes

/-- What the digest is taken of. -/
def message (s : Seal) (w : Bytes) : Bytes := s.nonce w ++ s.signature.key ++ s.payload w

/-- The received digest is the one it should be, cut to its length. -/
def Valid (s : Seal) (w : Bytes) : Prop :=
  s.received w = (digest (s.message w)).take s.signature.digestBytes

end Seal

/-- Two messages of one length that a digest cut to so many bytes cannot tell apart. -/
structure Collision (count : Nat) (m m' : Bytes) : Prop where
  ne : m ≠ m'
  length : m.length = m'.length
  digest : (digest m).take count = (digest m').take count

namespace Packet

mutual

/-- All signatures of a packet, at every depth, with their places. -/
def seals : Packet → List Seal
  | .field _ => []
  | .bits _ => []
  | .sequence packets => allSeals packets
  | .signature sig packets => ⟨0, sig, packets⟩ :: (allSeals packets).map (·.shift sig.nonceBytes)
  | .envelope header packets => (allSeals packets).map (·.shift header.magic.length)

/-- All signatures of packets in sequence. -/
def allSeals : List Packet → List Seal
  | [] => []
  | p :: rest => p.seals ++ (allSeals rest).map (·.shift p.size)

end

end Packet

/-- The signatures of an envelope, with their places behind its magic. -/
def Envelope.seals (e : Envelope) : List Seal := e.packet.seals

namespace Seal

/-- Behind more bytes, a signature guards what it guards in the others alone. -/
theorem valid_shift (s : Seal) (n : Nat) (w : Bytes) :
    (s.shift n).Valid w ↔ s.Valid (w.drop n) := by
  simp only [Valid, received, message, nonce, payload, digestStart, payloadStart, shift,
    Bytes.slice_drop, Nat.add_assoc]

/-- What a signature guards ends with its digest. -/
theorem valid_take (s : Seal) {n : Nat} (h : s.stop ≤ n) (w : Bytes) :
    s.Valid (w.take n) ↔ s.Valid w := by
  simp only [stop, digestStart, payloadStart] at h
  simp only [Valid, received, message, nonce, payload, digestStart, payloadStart]
  rw [Bytes.slice_take _ (by omega), Bytes.slice_take _ (by omega), Bytes.slice_take _ (by omega)]

/-- At the front, a signature is compared with the tag of its nonce and payload. -/
theorem valid_front {sig : Signature} {packets : List Packet} {w : Bytes} :
    (⟨0, sig, packets⟩ : Seal).Valid w ↔
      (w.drop (sig.nonceBytes + Packet.totalSize packets)).take sig.digestBytes =
        sig.tag (w.take sig.nonceBytes)
          ((w.drop sig.nonceBytes).take (Packet.totalSize packets)) := by
  simp only [Valid, received, message, nonce, payload, digestStart, payloadStart, Bytes.slice,
    Nat.zero_add, List.drop_zero, Signature.tag]

/-- A signature that is moved ends as much later. -/
theorem stop_shift (s : Seal) (n : Nat) : (s.shift n).stop = n + s.stop := by
  simp only [stop, digestStart, payloadStart, shift]
  omega

end Seal

namespace Packet

mutual

/-- A signature lies within its packet. -/
theorem stop_le_size : ∀ {p : Packet} {s : Seal}, s ∈ p.seals → s.stop ≤ p.size
  | .field f, s, h => by simp [seals] at h
  | .bits sources, s, h => by simp [seals] at h
  | .sequence packets, s, h => by
    rw [seals] at h
    exact stop_le_totalSize h
  | .signature sig packets, s, h => by
    rw [seals, List.mem_cons, List.mem_map] at h
    rw [size]
    rcases h with rfl | ⟨inner, hinner, rfl⟩
    · simp only [Seal.stop, Seal.digestStart, Seal.payloadStart]
      omega
    · have hle := stop_le_totalSize hinner
      rw [Seal.stop_shift]
      omega
  | .envelope header packets, s, h => by
    rw [seals, List.mem_map] at h
    obtain ⟨inner, hinner, rfl⟩ := h
    have hle := stop_le_totalSize hinner
    rw [size, Seal.stop_shift]
    omega

/-- Every signature ends within the bytes of its packets. -/
theorem stop_le_totalSize : ∀ {packets : List Packet} {s : Seal}, s ∈ allSeals packets →
    s.stop ≤ totalSize packets
  | [], s, h => by simp [allSeals] at h
  | p :: rest, s, h => by
    rw [allSeals, List.mem_append, List.mem_map] at h
    rw [totalSize]
    rcases h with h | ⟨later, hlater, rfl⟩
    · have hle := stop_le_size h
      omega
    · have hle := stop_le_totalSize hlater
      rw [Seal.stop_shift]
      omega

end

mutual

/-- In bytes that are sealed, every signature at any depth is valid. -/
theorem valid_of_sealed : ∀ {p : Packet} {w : Bytes}, p.Sealed w → ∀ s ∈ p.seals, s.Valid w
  | .field f, w, _, s, h => by simp [seals] at h
  | .bits sources, w, _, s, h => by simp [seals] at h
  | .sequence packets, w, hsealed, s, h => by
    rw [Sealed] at hsealed
    rw [seals] at h
    exact valid_of_allSealed hsealed s h
  | .signature sig packets, w, hsealed, s, h => by
    rw [Sealed] at hsealed
    obtain ⟨hdigest, hinside⟩ := hsealed
    rw [seals, List.mem_cons, List.mem_map] at h
    rcases h with rfl | ⟨inner, hinner, rfl⟩
    · exact Seal.valid_front.mpr hdigest
    · rw [Seal.valid_shift, ← Seal.valid_take inner (stop_le_totalSize hinner)]
      exact valid_of_allSealed hinside inner hinner
  | .envelope header packets, w, hsealed, s, h => by
    rw [Sealed] at hsealed
    rw [seals, List.mem_map] at h
    obtain ⟨inner, hinner, rfl⟩ := h
    rw [Seal.valid_shift, ← Seal.valid_take inner (stop_le_totalSize hinner)]
    exact valid_of_allSealed hsealed inner hinner

/-- Where packets are sealed, each of their signatures is valid. -/
theorem valid_of_allSealed : ∀ {packets : List Packet} {w : Bytes}, AllSealed packets w →
    ∀ s ∈ allSeals packets, s.Valid w
  | [], w, _, s, h => by simp [allSeals] at h
  | p :: rest, w, hsealed, s, h => by
    obtain ⟨hfirst, hrest⟩ := hsealed
    rw [allSeals, List.mem_append, List.mem_map] at h
    rcases h with h | ⟨later, hlater, rfl⟩
    · exact valid_of_sealed hfirst s h
    · rw [Seal.valid_shift]
      exact valid_of_allSealed hrest later hlater

end

/-- A signature with all its bytes is refused unless its digest is valid. -/
theorem decode_of_not_valid {sig : Signature} {packets : List Packet} {w : Bytes}
    (hsize : (signature sig packets).size ≤ w.length)
    (h : ¬ (⟨0, sig, packets⟩ : Seal).Valid w) :
    ((signature sig packets).decode w).outcome = .error .signatureMismatch := by
  rw [size] at hsize
  have hne : ¬ sig.tag (w.take sig.nonceBytes) ((w.drop sig.nonceBytes).take (totalSize packets)) =
      (w.drop (sig.nonceBytes + totalSize packets)).take sig.digestBytes := by
    intro htag
    exact h (Seal.valid_front.mpr htag.symm)
  simp only [decode]
  rw [needing_of_le _ hsize, if_neg hne]

end Packet

namespace Seal

variable {s : Seal} {w w' : Bytes}

/-- Another digest behind the same message is not valid. -/
theorem not_valid_of_digest (hsame : Bytes.SameOutside s.digestStart s.stop w w') (hne : w' ≠ w)
    (h : s.Valid w) : ¬ s.Valid w' := by
  intro h'
  have hnonce : s.nonce w' = s.nonce w := hsame.slice_eq (.inl (by
    rw [digestStart, payloadStart]
    omega))
  have hpayload : s.payload w' = s.payload w := hsame.slice_eq (.inl (Nat.le_refl _))
  have hmessage : s.message w' = s.message w := by rw [message, hnonce, hpayload, message]
  have hreceived : s.received w' = s.received w := by rw [h', hmessage, ← h]
  apply hne
  apply hsame.eq_of_slices
  have hcount : s.stop - s.digestStart = s.signature.digestBytes := by
    rw [stop]
    omega
  rw [hcount]
  exact hreceived

/-- Another message before the same digest is valid only if the two collide. -/
theorem collision_of_valid (hsame : Bytes.SameOutside s.start s.digestStart w w') (hne : w' ≠ w)
    (h : s.Valid w) (h' : s.Valid w') :
    Collision s.signature.digestBytes (s.message w) (s.message w') := by
  have hreceived : s.received w' = s.received w := hsame.slice_eq (.inr (Nat.le_refl _))
  have hnonce : (s.nonce w').length = (s.nonce w).length :=
    Bytes.length_slice_congr hsame.length _ _
  have hpayload : (s.payload w').length = (s.payload w).length :=
    Bytes.length_slice_congr hsame.length _ _
  refine ⟨?_, ?_, ?_⟩
  · intro hmessage
    apply hne
    apply hsame.eq_of_slices
    have hfirst :
        (s.nonce w' ++ s.signature.key).length = (s.nonce w ++ s.signature.key).length := by
      rw [List.length_append, List.length_append, hnonce]
    obtain ⟨hkeyed, hpayloads⟩ := List.append_inj hmessage.symm hfirst
    have hnonces := (List.append_inj hkeyed hnonce).1
    have hcount : s.digestStart - s.start =
        s.signature.nonceBytes + Packet.totalSize s.packets := by
      rw [digestStart, payloadStart]
      omega
    rw [hcount, Bytes.slice, Bytes.slice, List.take_add, List.take_add, List.drop_drop,
      List.drop_drop]
    exact congrArg₂ (· ++ ·) hnonces hpayloads
  · simp only [message, List.length_append, hnonce, hpayload]
  · rw [← h, ← h', hreceived]

end Seal

namespace Protocol

variable {p q : Protocol} {w w' : Bytes} {eaten : Eaten} {e : Envelope} {s : Seal}

/-- When an envelope is accepted, all its signatures are valid. -/
theorem valid_of_eat (h : (p.eat w).2 = .ok eaten)
    (he : p.envelopes[eaten.envelope]? = some e) (hs : s ∈ e.seals) : s.Valid w := by
  obtain ⟨e', he', -, -, hdecode, -⟩ := eat_ok h
  obtain rfl : e' = e := Option.some.inj (he'.symm.trans he)
  exact Packet.valid_of_sealed (Packet.sealed_of_decode hdecode) s hs

/-- A signature stands behind the magic. -/
theorem magicSize_le_start (h : (p.eat w).2 = .ok eaten)
    (he : p.envelopes[eaten.envelope]? = some e) (hs : s ∈ e.seals) : p.magicSize ≤ s.start := by
  obtain ⟨e', he', hlong, hfind, -, -⟩ := eat_ok h
  obtain rfl : e' = e := Option.some.inj (he'.symm.trans he)
  rw [find?] at hfind
  obtain ⟨hi, hmagic, -⟩ := List.findIdx?_eq_some_iff_getElem.mp hfind
  rw [List.getElem?_eq_getElem hi, Option.some.injEq] at he
  rw [he, decide_eq_true_eq] at hmagic
  have hlength : e'.header.magic.length = p.magicSize := by
    rw [hmagic, List.length_take, Nat.min_eq_left hlong]
  rw [Envelope.seals, Envelope.packet, Packet.seals, List.mem_map] at hs
  obtain ⟨inner, -, rfl⟩ := hs
  rw [Seal.shift, hlength]
  exact Nat.le_add_right _ _

/-- With the bytes of a signature changed, either the same envelope is accepted or none. -/
theorem eat_tampered (h : (p.eat w).2 = .ok eaten)
    (he : p.envelopes[eaten.envelope]? = some e) (hs : s ∈ e.seals) {start stop : Nat}
    (hstart : s.start ≤ start) (hsame : Bytes.SameOutside start stop w w') :
    (∃ fault, (p.eat w').2 = .error fault) ∨
      ∃ eaten', (p.eat w').2 = .ok eaten' ∧ eaten'.envelope = eaten.envelope := by
  cases hout : (p.eat w').2 with
  | error fault => exact .inl ⟨fault, rfl⟩
  | ok eaten' =>
    have hmagic : w'.take p.magicSize = w.take p.magicSize := by
      have hbefore := magicSize_le_start h he hs
      have hslice : Bytes.slice w' 0 p.magicSize = Bytes.slice w 0 p.magicSize :=
        hsame.slice_eq (.inl (by omega))
      simpa only [Bytes.slice, List.drop_zero] using hslice
    obtain ⟨-, -, -, hfind, -, -⟩ := eat_ok h
    obtain ⟨-, -, -, hfind', -, -⟩ := eat_ok hout
    rw [hmagic, hfind, Option.some.injEq] at hfind'
    exact .inr ⟨eaten', rfl, hfind'.symm⟩

end Protocol

/-- Who changes an accepted string within the bytes of one signature, at whatever depth, is
refused if only the digest is changed. If only nonce or payload is changed, then it is refused
too, or the two messages collide. No signature is accepted without a valid digest. -/
theorem tampering_detected {p q : Protocol} {w : Bytes} {eaten : Eaten} {e : Envelope} {s : Seal}
    (hq : p.Reaches q) (h : (p.eat w).2 = .ok eaten)
    (he : p.envelopes[eaten.envelope]? = some e) (hs : s ∈ e.seals) :
    (∀ w', Bytes.SameOutside s.digestStart s.stop w w' → w' ≠ w →
      ∃ fault, (q.eat w').2 = .error fault) ∧
    (∀ w', Bytes.SameOutside s.start s.digestStart w w' → w' ≠ w →
      (∃ fault, (q.eat w').2 = .error fault) ∨
        Collision s.signature.digestBytes (s.message w) (s.message w')) ∧
    ∀ (sig : Signature) (packets : List Packet) (input : Bytes),
      (Packet.signature sig packets).size ≤ input.length →
      ¬ (⟨0, sig, packets⟩ : Seal).Valid input →
        ((Packet.signature sig packets).decode input).outcome = .error .signatureMismatch := by
  have hvalid := Protocol.valid_of_eat h he hs
  refine ⟨?_, ?_, fun sig packets input => Packet.decode_of_not_valid⟩
  · intro w' hsame hne
    rw [Protocol.eat_outcome_congr hq.readers]
    have hstart : s.start ≤ s.digestStart := by
      rw [Seal.digestStart, Seal.payloadStart]
      omega
    rcases Protocol.eat_tampered h he hs hstart hsame with hfault | ⟨eaten', hok, hsame'⟩
    · exact hfault
    · rw [← hsame'] at he
      exact absurd (Protocol.valid_of_eat hok he hs) (Seal.not_valid_of_digest hsame hne hvalid)
  · intro w' hsame hne
    rw [Protocol.eat_outcome_congr hq.readers]
    rcases Protocol.eat_tampered h he hs (Nat.le_refl _) hsame with hfault | ⟨eaten', hok, hsame'⟩
    · exact .inl hfault
    · rw [← hsame'] at he
      exact .inr (Seal.collision_of_valid hsame hne hvalid (Protocol.valid_of_eat hok he hs))

/-! ### A small system

One envelope carries two flags, the second one under a signature of its own inside another
signature. It serves for an example.
-/

namespace Alarm

/-- The signature around everything. -/
def outer : Signature := ⟨1, 2, [1, 2], .ofSeed 0, by decide, by decide, by decide, by decide⟩

/-- The signature inside it. -/
def inner : Signature := ⟨1, 1, [3], .ofSeed 0, by decide, by decide, by decide, by decide⟩

/-- One flag in a byte of its own. -/
def flag (cell : String) : Packet := .bits [.flag ⟨⟨cell, true, false⟩, false⟩]

/-- The envelope of both flags, with one signature inside the other. -/
def envelope : Envelope :=
  { header := ⟨[0xA1], 3, 0, 0, by decide, by decide⟩
    packets := [.signature outer [flag "armed", .signature inner [flag "raised"]]]
    staged := [none, none] }

/-- The envelope on its own. -/
def protocol : Protocol := ⟨[envelope]⟩

/-- An envelope that raises the alarm. The inner signature begins with the byte 7. -/
def frame : Bytes := [0xA1, 5, 128, 7, 128, 251, 212, 22]

/-- Neither the inner digest nor the flag before it can be changed unnoticed, short of a
collision. -/
theorem tampering_detected_alarm :
    (protocol.eat frame).2 = .ok ⟨0, 8⟩ ∧
      (∃ fault, (protocol.eat (frame.set 5 0)).2 = .error fault) ∧
      ((∃ fault, (protocol.eat (frame.set 4 0)).2 = .error fault) ∨
        Collision 1 [7, 3, 128] [7, 3, 0]) := by
  have heat : (protocol.eat frame).2 = .ok ⟨0, 8⟩ := by decide +kernel
  have hseal : ⟨3, inner, [flag "raised"]⟩ ∈ envelope.seals := by
    have hseals : envelope.seals =
        [⟨1, outer, [flag "armed", .signature inner [flag "raised"]]⟩,
          ⟨3, inner, [flag "raised"]⟩] := rfl
    rw [hseals]
    exact List.mem_cons_of_mem _ List.mem_cons_self
  obtain ⟨hdigest, hmessage, -⟩ := tampering_detected .start heat (e := envelope) rfl hseal
  refine ⟨heat, ?_, ?_⟩
  · exact hdigest _ (.set (by decide) (by decide) 0) (by decide)
  · exact hmessage _ (.set (by decide) (by decide) 0) (by decide)

end Alarm

end DataLink
