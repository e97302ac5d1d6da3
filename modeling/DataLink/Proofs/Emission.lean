import DataLink.Proofs.Decoding
import DataLink.Proofs.Echo

/-!
# What arrives of a packet

If all envelopes inside a packet are due, it emits as many bytes as it consumes, and these are
decoded by the same packet, whatever follows them. Every leaf then holds what arrives of its cell's
value. An envelope inside that is not due leaves a gap: the packet emits fewer bytes than that.
-/

namespace DataLink

/-- A word is written in four bytes. -/
theorem length_bytesOfWord (w : UInt32) : (bytesOfWord w).length = 4 := Bytes.length_ofNat _ _

/-- Every word is written in four bytes. -/
theorem length_flatMap_bytesOfWord (words : List UInt32) :
    (words.flatMap bytesOfWord).length = 4 * words.length := by
  induction words with
  | nil => rfl
  | cons w rest ih =>
    rw [List.flatMap_cons, List.length_append, length_bytesOfWord, ih, List.length_cons]
    omega

/-- A digest has thirty-two bytes. -/
theorem length_digest (message : Bytes) : (digest message).length = 32 := by
  rw [digest, length_flatMap_bytesOfWord, Vector.length_toList]

namespace Keystream

/-- Every block of a keystream has sixteen words. -/
theorem length_flatMap_block (key : Vector UInt32 8) (start count : Nat) :
    ((List.range' start count).flatMap (block key)).length = 16 * count := by
  induction count generalizing start with
  | zero => rfl
  | succ count ih =>
    rw [List.range'_succ, List.flatMap_cons, List.length_append, ih, block, Vector.length_toList]
    omega

/-- A keystream gives as many words as are asked for. -/
theorem length_words (k : Keystream) (count : Nat) : (k.words count).length = count := by
  rw [words, List.length_take, List.length_drop, length_flatMap_block]
  omega

/-- A keystream gives as many bytes as are asked for. -/
theorem length_bytes (k : Keystream) (count : Nat) : (k.bytes count).length = count := by
  rw [bytes, List.length_take, length_flatMap_bytesOfWord, length_words, wordsFor]
  omega

end Keystream

namespace Signature

/-- A nonce has the length that its signature was given. -/
theorem length_nonce (s : Signature) : s.nonce.length = s.nonceBytes := s.nonces.length_bytes _

/-- A truncated digest has the length that its signature was given. -/
theorem length_tag (s : Signature) (nonce payload : Bytes) :
    (s.tag nonce payload).length = s.digestBytes := by
  rw [tag, List.length_take, length_digest]
  exact Nat.min_eq_left s.digestBytes_le

end Signature

namespace Packet

mutual

/-- No envelope inside. -/
def Plain : Packet → Prop
  | .field _ => True
  | .bits _ => True
  | .sequence packets => AllPlain packets
  | .signature _ packets => AllPlain packets
  | .envelope _ _ => False

/-- No envelope inside any of the packets. -/
def AllPlain : List Packet → Prop
  | [] => True
  | p :: rest => p.Plain ∧ AllPlain rest

end

mutual

/-- A packet with nothing but unconditional parts stays one on later turns. -/
theorem plain_advance : ∀ {p : Packet}, p.Plain → p.advance.Plain
  | .field _, _ => trivial
  | .bits _, _ => trivial
  | .sequence packets, h => by
    rw [Plain] at h
    rw [advance, Plain]
    exact allPlain_advanceAll h
  | .signature sig packets, h => by
    rw [Plain] at h
    rw [advance, Plain]
    exact allPlain_advanceAll h

/-- Packets with nothing but unconditional parts stay so on later turns. -/
theorem allPlain_advanceAll : ∀ {packets : List Packet}, AllPlain packets →
    AllPlain (advanceAll packets)
  | [], _ => trivial
  | _ :: _, h => ⟨plain_advance h.1, allPlain_advanceAll h.2⟩

end

/-- What is staged for leaves when the cells' values were sent. -/
noncomputable def echoes (leaves : List Leaf) (cells : Cells) : Staged :=
  leaves.map fun leaf => leaf.echo (cells.value? leaf.binding.cell)

/-- What arrives of two runs of leaves arrives one after the other. -/
theorem echoes_append (first second : List Leaf) (cells : Cells) :
    echoes (first ++ second) cells = echoes first cells ++ echoes second cells := List.map_append

mutual

/-- Every envelope inside is emitted on the coming turn. -/
def Due : Packet → Prop
  | .field _ => True
  | .bits _ => True
  | .sequence packets => AllDue packets
  | .signature _ packets => AllDue packets
  | .envelope header packets => header.isDue = true ∧ AllDue packets

/-- Every envelope inside any of the packets is emitted on the coming turn. -/
def AllDue : List Packet → Prop
  | [] => True
  | p :: rest => p.Due ∧ AllDue rest

end

mutual

/-- Where there is no envelope inside, none is left out. -/
theorem due_of_plain : ∀ {p : Packet}, p.Plain → p.Due
  | .field _, _ => trivial
  | .bits _, _ => trivial
  | .sequence _, h => allDue_of_plain h
  | .signature _ _, h => allDue_of_plain h

/-- Unconditional parts are due on every turn. -/
theorem allDue_of_plain : ∀ {packets : List Packet}, AllPlain packets → AllDue packets
  | [], _ => trivial
  | _ :: _, h => ⟨due_of_plain h.1, allDue_of_plain h.2⟩

end

mutual

/-- A packet never sends more bytes than it consumes. -/
theorem length_emit_le (cells : Cells) : ∀ p : Packet, (p.emit cells).length ≤ p.size
  | .field f => Nat.le_of_eq (f.length_encode _)
  | .bits sources => Nat.le_of_eq (BitSource.length_encodeAll sources cells)
  | .sequence packets => length_emitAll_le cells packets
  | .signature sig packets => by
    have hpayload := length_emitAll_le cells packets
    simp only [emit, Signature.wrap, List.length_append, Signature.length_nonce,
      Signature.length_tag, size]
    omega
  | .envelope header packets => by
    have hpayload := length_emitAll_le cells packets
    simp only [emit, size]
    split
    · rw [List.length_append]
      omega
    · exact Nat.zero_le _

/-- No more bytes are emitted than the sizes of the packets say. -/
theorem length_emitAll_le (cells : Cells) : ∀ packets : List Packet,
    (emitAll cells packets).length ≤ totalSize packets
  | [] => Nat.le_refl 0
  | p :: rest => by
    have hfirst := length_emit_le cells p
    have hothers := length_emitAll_le cells rest
    rw [emitAll, List.length_append, totalSize]
    omega

end

mutual

/-- A packet sends as many bytes as it consumes unless an envelope inside is left out. -/
theorem length_emit_eq_iff (cells : Cells) : ∀ p : Packet,
    (p.emit cells).length = p.size ↔ p.Due
  | .field f => iff_true_intro (f.length_encode _)
  | .bits sources => iff_true_intro (BitSource.length_encodeAll sources cells)
  | .sequence packets => length_emitAll_eq_iff cells packets
  | .signature sig packets => by
    rw [Due, ← length_emitAll_eq_iff cells packets]
    simp only [emit, Signature.wrap, List.length_append, Signature.length_nonce,
      Signature.length_tag, size]
    omega
  | .envelope header packets => by
    have hmagic : 0 < header.magic.length := List.length_pos_iff.mpr header.magic_ne
    rw [Due, ← length_emitAll_eq_iff cells packets]
    simp only [emit, size]
    by_cases hdue : header.isDue = true
    · rw [if_pos hdue, List.length_append, Nat.add_left_cancel_iff, and_iff_right hdue]
    · rw [if_neg hdue, List.length_nil]
      constructor
      · intro hempty
        omega
      · intro hboth
        exact absurd hboth.1 hdue

/-- As many bytes are emitted as the sizes say exactly if everything inside is due. -/
theorem length_emitAll_eq_iff (cells : Cells) : ∀ packets : List Packet,
    (emitAll cells packets).length = totalSize packets ↔ AllDue packets
  | [] => iff_true_intro rfl
  | p :: rest => by
    have hfirst := length_emit_le cells p
    have hothers := length_emitAll_le cells rest
    rw [AllDue, ← length_emit_eq_iff cells p, ← length_emitAll_eq_iff cells rest, emitAll,
      List.length_append, totalSize]
    omega

end

/-- A signature compares the digest that stands behind nonce and payload. -/
theorem decode_signature {sig : Signature} {packets : List Packet} {nonce payload received : Bytes}
    (hnonce : nonce.length = sig.nonceBytes) (hpayload : payload.length = totalSize packets)
    (hreceived : received.length = sig.digestBytes) :
    (signature sig packets).decode (nonce ++ payload ++ received) =
      if sig.tag nonce payload = received then
        ⟨(decodeAll packets payload).staged,
          (decodeAll packets payload).outcome.map fun _ => (signature sig packets).size⟩
      else ⟨[], .error .signatureMismatch⟩ := by
  have hlong : sig.nonceBytes + totalSize packets + sig.digestBytes ≤
      (nonce ++ payload ++ received).length := by
    simp only [List.length_append]
    omega
  have htake : (nonce ++ payload ++ received).take sig.nonceBytes = nonce := by
    rw [List.append_assoc, List.take_left' hnonce]
  have hinner : ((nonce ++ payload ++ received).drop sig.nonceBytes).take (totalSize packets) =
      payload := by
    rw [List.append_assoc, List.drop_left' hnonce, List.take_left' hpayload]
  have hlast : ((nonce ++ payload ++ received).drop
      (sig.nonceBytes + totalSize packets)).take sig.digestBytes = received := by
    rw [← List.drop_drop, List.append_assoc, List.drop_left' hnonce, List.drop_left' hpayload,
      List.take_of_length_le (Nat.le_of_eq hreceived)]
  simp only [decode]
  rw [needing_of_le _ hlong, htake, hinner, hlast, size]

/-- An envelope compares the magic that stands before the payload. -/
theorem decode_envelope {header : Header} {packets : List Packet} {magic payload : Bytes}
    (hmagic : magic.length = header.magic.length) (hpayload : payload.length = totalSize packets) :
    (envelope header packets).decode (magic ++ payload) =
      if magic = header.magic then
        ⟨(decodeAll packets payload).staged,
          (decodeAll packets payload).outcome.map fun n => header.magic.length + n⟩
      else ⟨[], .error .unknownMagic⟩ := by
  have hlong : header.magic.length + totalSize packets ≤ (magic ++ payload).length := by
    rw [List.length_append]
    omega
  simp only [decode]
  rw [needing_of_le _ hlong, List.take_left' hmagic, List.drop_left' hmagic,
    List.take_of_length_le (Nat.le_of_eq hpayload)]

mutual

/-- A packet decodes what it emits, whatever follows, if no envelope inside is left out. -/
theorem decode_emit (cells : Cells) : ∀ {p : Packet}, p.Due → ∀ more : Bytes,
    p.decode (p.emit cells ++ more) = ⟨echoes p.leaves cells, .ok p.size⟩
  | .field f, _, more => by
    have hlength := f.length_encode (cells.value? f.binding.cell)
    have hlong : f.size ≤ (f.encode (cells.value? f.binding.cell) ++ more).length := by
      rw [List.length_append, hlength]
      omega
    rw [emit, decode, needing_of_le _ hlong, List.take_left' hlength, f.decode_encode]
    rfl
  | .bits sources, _, more => by
    have hlength := BitSource.length_encodeAll sources cells
    have hlong : BitSource.totalBytes sources ≤
        (BitSource.encodeAll sources cells ++ more).length := by
      rw [List.length_append, hlength]
      omega
    simp only [emit, decode]
    rw [needing_of_le _ hlong, List.take_left' hlength, BitSource.decodeAll_encodeAll, echoes,
      leaves, List.map_map]
    rfl
  | .sequence packets, h, more => by
    rw [Due] at h
    have hlong : totalSize packets ≤ (emitAll cells packets ++ more).length := by
      rw [List.length_append, (length_emitAll_eq_iff cells packets).mpr h]
      omega
    simp only [emit, decode]
    rw [needing_of_le _ hlong]
    exact decodeAll_emitAll cells h more
  | .signature sig packets, h, more => by
    have hlong := Nat.le_of_eq ((length_emit_eq_iff cells (signature sig packets)).mpr h).symm
    rw [Due] at h
    have hlength := (length_emitAll_eq_iff cells packets).mpr h
    have hdecode := decodeAll_emitAll cells h []
    rw [List.append_nil] at hdecode
    rw [decode_append more hlong, emit, Signature.wrap,
      decode_signature sig.length_nonce hlength (sig.length_tag _ _), if_pos rfl, hdecode]
    rfl
  | .envelope header packets, h, more => by
    have hlong := Nat.le_of_eq ((length_emit_eq_iff cells (envelope header packets)).mpr h).symm
    rw [Due] at h
    have hlength := (length_emitAll_eq_iff cells packets).mpr h.2
    have hdecode := decodeAll_emitAll cells h.2 []
    rw [List.append_nil] at hdecode
    rw [decode_append more hlong, emit, if_pos h.1, decode_envelope rfl hlength, if_pos rfl,
      hdecode]
    rfl

/-- Packets whose parts are all due are decoded from what they emit, whatever follows it. -/
theorem decodeAll_emitAll (cells : Cells) : ∀ {packets : List Packet}, AllDue packets →
    ∀ more : Bytes, decodeAll packets (emitAll cells packets ++ more) =
      ⟨echoes (allLeaves packets) cells, .ok (totalSize packets)⟩
  | [], _, _ => rfl
  | p :: rest, h, more => by
    have hlength := (length_emit_eq_iff cells p).mpr h.1
    have hfirst := decode_emit cells h.1 (emitAll cells rest ++ more)
    have hothers := decodeAll_emitAll cells h.2 more
    rw [emitAll, List.append_assoc, decodeAll_cons_of_ok (congrArg Decoded.outcome hfirst), hfirst,
      List.drop_left' hlength, hothers, allLeaves, echoes_append]
    rfl

end

end Packet

end DataLink
