import DataLink.Proofs.BitAccess
import DataLink.Proofs.Emission

/-!
# Packets in bounds

A packet is decoded from ranges of its input whose bounds come from the sizes of its parts, and it
is emitted with ranges of what is signed and with a remainder by the envelope's cadence. All of
these are in bounds whatever arrives: no part is decoded before there is enough input for the
whole, and every part takes as many bytes as its size says.
-/

namespace DataLink

namespace Header

/-- Whether the envelope is emitted on the coming turn. -/
def isDueChecked (h : Header) : Checked Bool := do
  let phase ← Checked.remainder (h.turns + h.sendOffset) h.sendEvery
  .ok (phase = 0)

/-- Whether an envelope is due is found within bounds. -/
theorem isDueChecked_eq (h : Header) : h.isDueChecked = .ok h.isDue := by
  rw [isDueChecked, Checked.remainder_of_ne h.sendEvery_ne, Checked.ok_bind, isDue]

end Header

namespace Signature

/-- The digest that protects a payload under a nonce, cut to its length. -/
def tagChecked (s : Signature) (nonce payload : Bytes) : Checked Bytes :=
  Checked.range (digest (nonce ++ s.key ++ payload)) 0 s.digestBytes

/-- A digest is cut within bounds. -/
theorem tagChecked_eq (s : Signature) (nonce payload : Bytes) :
    s.tagChecked nonce payload = .ok (s.tag nonce payload) := by
  have hroom : s.digestBytes ≤ (digest (nonce ++ s.key ++ payload)).length := by
    rw [length_digest]
    exact s.digestBytes_le
  rw [tagChecked, Checked.range_front hroom, tag]

/-- A signed payload as sent. The nonce and the payload are taken from where they lie together. -/
def wrapChecked (s : Signature) (payload : Bytes) : Checked Bytes := do
  let scratch := s.nonce ++ payload
  let nonce ← Checked.range scratch 0 s.nonceBytes
  let payload ← Checked.range scratch s.nonceBytes scratch.length
  let tag ← s.tagChecked nonce payload
  .ok (scratch ++ tag)

/-- A payload is wrapped within bounds. -/
theorem wrapChecked_eq (s : Signature) (payload : Bytes) :
    s.wrapChecked payload = .ok (s.wrap payload) := by
  have hnonce : s.nonce.length = s.nonceBytes := s.length_nonce
  have hroom : s.nonceBytes ≤ (s.nonce ++ payload).length := by
    rw [List.length_append]
    omega
  simp only [wrapChecked, Checked.range_front hroom, Checked.range_rest hroom, Checked.ok_bind,
    List.take_left' hnonce, List.drop_left' hnonce, tagChecked_eq, wrap]

end Signature

namespace Packet

/-! ### Decoding -/

/-- Decodes `body` if the input is not shorter than `size`. -/
def needingChecked (size : Nat) (input : Bytes) (body : Checked Decoded) : Checked Decoded :=
  if input.shorterThan size then .ok ⟨[], .error (.insufficient size input.length)⟩ else body

/-- Nothing is read of an input that is too short. -/
theorem needingChecked_eq {size : Nat} {input : Bytes} {body : Checked Decoded} {plain : Decoded}
    (h : size ≤ input.length → body = .ok plain) :
    needingChecked size input body = .ok (needing size input plain) := by
  unfold needingChecked needing
  by_cases hshort : input.shorterThan size = true
  · rw [if_pos hshort, if_pos hshort]
  · rw [if_neg hshort, if_neg hshort]
    rw [Bytes.shorterThan_iff] at hshort
    exact h (by omega)

mutual

/-- Decodes from the front of the input. -/
def decodeChecked : Packet → Bytes → Checked Decoded
  | .field f, input =>
    needingChecked f.size input do
      let value ← f.decodeChecked input
      .ok ⟨[value], .ok f.size⟩
  | .bits sources, input =>
    let size := BitSource.totalBytes sources
    needingChecked size input do
      let packed ← Checked.range input 0 size
      let values ← BitSource.getAll sources packed 0
      .ok ⟨values.map some, .ok size⟩
  | .sequence packets, input =>
    needingChecked (totalSize packets) input (decodeAllChecked packets input 0)
  | .signature sig packets, input =>
    let payloadStop := sig.nonceBytes + totalSize packets
    let size := payloadStop + sig.digestBytes
    needingChecked size input do
      let nonce ← Checked.range input 0 sig.nonceBytes
      let payload ← Checked.range input sig.nonceBytes payloadStop
      let received ← Checked.range input payloadStop size
      let expected ← sig.tagChecked nonce payload
      if expected = received then do
        let inner ← decodeAllChecked packets payload 0
        .ok ⟨inner.staged, inner.outcome.map fun _ => size⟩
      else .ok ⟨[], .error .signatureMismatch⟩
  | .envelope header packets, input =>
    let size := header.magic.length + totalSize packets
    needingChecked size input do
      let magic ← Checked.range input 0 header.magic.length
      if magic = header.magic then do
        let payload ← Checked.range input header.magic.length size
        let inner ← decodeAllChecked packets payload 0
        .ok ⟨inner.staged, inner.outcome.map fun n => header.magic.length + n⟩
      else .ok ⟨[], .error .unknownMagic⟩

/-- Decodes packets one after another, from an offset on that moves with what they take. -/
def decodeAllChecked : List Packet → Bytes → Nat → Checked Decoded
  | [], _, _ => .ok ⟨[], .ok 0⟩
  | p :: rest, input, offset => do
    let part ← Checked.range input offset input.length
    let first ← p.decodeChecked part
    match first.outcome with
    | .error fault => .ok ⟨first.staged, .error fault⟩
    | .ok n => do
      let others ← decodeAllChecked rest input (offset + n)
      .ok ⟨first.staged ++ others.staged, others.outcome.map fun m => n + m⟩

end

mutual

/-- Whatever arrives, decoding stays in bounds. -/
theorem decodeChecked_eq : ∀ (p : Packet) (input : Bytes),
    p.decodeChecked input = .ok (p.decode input)
  | .field f, input => by
    rw [decodeChecked, decode]
    refine needingChecked_eq fun hsize => ?_
    rw [Field.decodeChecked_eq hsize, Checked.ok_bind]
  | .bits sources, input => by
    rw [decodeChecked, decode]
    refine needingChecked_eq fun hsize => ?_
    have hlength : (input.take (BitSource.totalBytes sources)).length =
        BitSource.totalBytes sources := List.length_take_of_le hsize
    have hroom : 0 + BitSource.totalBits sources ≤
        8 * (input.take (BitSource.totalBytes sources)).length := by
      rw [hlength, Nat.zero_add]
      exact BitSource.totalBits_le sources
    rw [Checked.range_front hsize, Checked.ok_bind, BitSource.getAll_eq hroom, Checked.ok_bind,
      List.drop_zero]
  | .sequence packets, input => by
    rw [decodeChecked, decode]
    refine needingChecked_eq fun _ => ?_
    exact decodeAllChecked_eq packets (Nat.zero_le _)
  | .signature sig packets, input => by
    rw [decodeChecked, decode]
    refine needingChecked_eq fun hsize => ?_
    rw [Checked.range_front (by omega), Checked.ok_bind,
      Checked.range_of_le (Nat.le_add_right _ _) (by omega), Checked.ok_bind,
      Checked.range_of_le (Nat.le_add_right _ _) hsize, Checked.ok_bind,
      Signature.tagChecked_eq, Checked.ok_bind, Nat.add_sub_cancel_left, Nat.add_sub_cancel_left]
    split
    · rw [decodeAllChecked_eq packets (Nat.zero_le _), Checked.ok_bind, List.drop_zero]
    · rfl
  | .envelope header packets, input => by
    rw [decodeChecked, decode]
    refine needingChecked_eq fun hsize => ?_
    rw [Checked.range_front (by omega), Checked.ok_bind]
    split
    · rw [Checked.range_of_le (Nat.le_add_right _ _) hsize, Checked.ok_bind,
        Nat.add_sub_cancel_left, decodeAllChecked_eq packets (Nat.zero_le _), Checked.ok_bind,
        List.drop_zero]
    · rfl

/-- Packets are decoded within bounds from any place in the input. -/
theorem decodeAllChecked_eq : ∀ (packets : List Packet) {input : Bytes} {offset : Nat},
    offset ≤ input.length →
    decodeAllChecked packets input offset = .ok (decodeAll packets (input.drop offset))
  | [], _, _, _ => rfl
  | p :: rest, input, offset, h => by
    rw [decodeAllChecked, Checked.range_rest h, Checked.ok_bind, decodeChecked_eq p,
      Checked.ok_bind]
    cases hout : (p.decode (input.drop offset)).outcome with
    | error fault => rw [decodeAll_cons_of_error hout]
    | ok n =>
      -- A part never takes more than was left, so the next part starts within the input.
      obtain ⟨hn, hle, -⟩ := decode_ok hout
      rw [List.length_drop] at hle
      have hnext : offset + n ≤ input.length := by omega
      simp only [decodeAllChecked_eq rest hnext, Checked.ok_bind, decodeAll_cons_of_ok hout,
        List.drop_drop]

end

/-! ### Emission -/

mutual

/-- The bytes sent for the cells' values. -/
def emitChecked (cells : Cells) : Packet → Checked Bytes
  | .field f => f.encodeChecked (cells.value? f.binding.cell)
  | .bits sources => BitSource.encodeAllChecked sources cells
  | .sequence packets => emitAllChecked cells packets
  | .signature sig packets => do
    let payload ← emitAllChecked cells packets
    sig.wrapChecked payload
  | .envelope header packets => do
    let due ← header.isDueChecked
    if due then do
      let payload ← emitAllChecked cells packets
      .ok (header.magic ++ payload)
    else .ok []

/-- The bytes of packets in sequence. -/
def emitAllChecked (cells : Cells) : List Packet → Checked Bytes
  | [] => .ok []
  | p :: rest => do
    let first ← p.emitChecked cells
    let others ← emitAllChecked cells rest
    .ok (first ++ others)

end

mutual

/-- Whatever the cells hold, emission stays in bounds. -/
theorem emitChecked_eq (cells : Cells) : ∀ p : Packet, p.emitChecked cells = .ok (p.emit cells)
  | .field f => by rw [emitChecked, Field.encodeChecked_eq, emit]
  | .bits sources => by rw [emitChecked, BitSource.encodeAllChecked_eq, emit]
  | .sequence packets => by rw [emitChecked, emitAllChecked_eq, emit]
  | .signature sig packets => by
    rw [emitChecked, emitAllChecked_eq, Checked.ok_bind, Signature.wrapChecked_eq, emit]
  | .envelope header packets => by
    rw [emitChecked, Header.isDueChecked_eq, Checked.ok_bind, emit]
    split
    · rw [emitAllChecked_eq, Checked.ok_bind]
    · rfl

/-- Packets are emitted within bounds. -/
theorem emitAllChecked_eq (cells : Cells) : ∀ packets : List Packet,
    emitAllChecked cells packets = .ok (emitAll cells packets)
  | [] => rfl
  | p :: rest => by
    rw [emitAllChecked, emitChecked_eq, Checked.ok_bind, emitAllChecked_eq, Checked.ok_bind,
      emitAll]

end

end Packet

end DataLink
