import DataLink.Proofs.PacketAccess
import DataLink.Proofs.Readers

/-!
# Draws and envelopes in bounds

Interference draws with a probability and below the number of bytes it may hit, which is then not
zero. A protocol eats from ranges of its input, and it takes no more than there is.
-/

namespace DataLink

namespace Keystream

/-- A drawn number has at most sixty-four bits. -/
theorem next64_lt (k : Keystream) : k.next64.1 < UInt64.size := by
  unfold next64
  split
  · next low high _ =>
    have hlow : low.toNat < 2 ^ 32 := low.toNat_lt
    have hhigh : high.toNat < 2 ^ 32 := high.toNat_lt
    simp only [UInt32.size, UInt64.size]
    omega
  · have hpos : 0 < UInt64.size := by decide
    exact hpos

/-- Scaling a draw down to a range stays in the range, also when rejection gives up. -/
theorem sampleHigh_lt {draw : Keystream → Nat × Keystream} {size range : Nat}
    (hdraw : ∀ k, (draw k).1 < size) (hrange : 0 < range) (zone attempts : Nat) (k : Keystream) :
    (sampleHigh draw size range zone attempts k).1 < range := by
  have hscaled (k : Keystream) : (draw k).1 * range / size < range := by
    apply Nat.div_lt_of_lt_mul
    exact Nat.mul_lt_mul_of_pos_right (hdraw k) hrange
  induction attempts generalizing k with
  | zero => exact hscaled k
  | succ attempts ih =>
    rw [sampleHigh]
    split
    next v k' hv =>
      split
      · have hlt := hscaled k
        rwa [hv] at hlt
      · exact ih k'

/-- A number drawn from a range lies in it. -/
theorem below_lt {range : Nat} (h : 0 < range) (k : Keystream) : (k.below range).1 < range :=
  sampleHigh_lt next64_lt h _ _ k

end Keystream

namespace Interference

/-- Draws whether a hit occurs. -/
def drawChecked (i : Interference) : Checked (Bool × Keystream) :=
  if i.probability.isProbability then .ok i.draw else .error (.probability i.probability)

/-- Perhaps spoils one byte. -/
def disturbChecked (i : Interference) (bytes : Bytes) : Checked Disturbed :=
  if bytes = [] || i.probability.le .zero then .ok ⟨bytes, none, i⟩
  else do
    let (hit, noise) ← i.drawChecked
    if hit then do
      let (index, noise) ← Checked.below noise bytes.length
      let (mask, noise) := noise.nonzeroByte
      let bytes ← Checked.modify bytes index (· ^^^ mask)
      .ok ⟨bytes, some index, { i with noise }⟩
    else .ok ⟨bytes, none, { i with noise }⟩

/-- Interference with a probability stays in bounds. -/
theorem disturbChecked_eq {i : Interference} (h : i.probability.isProbability = true)
    (bytes : Bytes) : i.disturbChecked bytes = .ok (i.disturb bytes) := by
  unfold disturbChecked disturb
  by_cases hquiet : (bytes = [] || i.probability.le .zero) = true
  · rw [if_pos hquiet, if_pos hquiet]
  · have hpos : 0 < bytes.length := by
      rw [List.length_pos_iff]
      intro hnil
      simp [hnil] at hquiet
    rw [if_neg hquiet, if_neg hquiet, drawChecked, if_pos h, Checked.ok_bind]
    obtain ⟨hit, noise⟩ := i.draw
    cases hit with
    | false => rfl
    | true =>
      have hindex := Keystream.below_lt hpos noise
      simp only [if_pos, Checked.below_of_pos hpos, Checked.ok_bind,
        Checked.modify_of_lt hindex]

/-- Interference keeps its probability. -/
theorem probability_disturb (i : Interference) (bytes : Bytes) :
    (i.disturb bytes).next.probability = i.probability := by
  unfold disturb
  split
  · rfl
  · split <;> rfl

end Interference

/-- Packets in sequence are sent one after another. -/
theorem Packet.emitAll_eq_flatMap (cells : Cells) (packets : List Packet) :
    emitAll cells packets = packets.flatMap fun p => p.emit cells := by
  induction packets with
  | nil => rfl
  | cons p rest ih => rw [emitAll, ih, List.flatMap_cons]

namespace Protocol

/-- Appends what is sent on the coming turn. The part that was appended is looked at once more. -/
def emitChecked (p : Protocol) (cells : Cells) (blob : Bytes) : Checked Bytes := do
  let bytes ← Packet.emitAllChecked cells (p.envelopes.map Envelope.packet)
  let grown := blob ++ bytes
  let _ ← Checked.range grown blob.length grown.length
  .ok grown

/-- A protocol emits within bounds. -/
theorem emitChecked_eq (p : Protocol) (cells : Cells) (blob : Bytes) :
    p.emitChecked cells blob = .ok (blob ++ p.emit cells) := by
  have hroom (bytes : Bytes) : blob.length ≤ (blob ++ bytes).length := by
    rw [List.length_append]
    omega
  simp only [emitChecked, Packet.emitAllChecked_eq, Checked.ok_bind, Checked.range_rest (hroom _),
    Packet.emitAll_eq_flatMap, List.flatMap_map]
  rfl

/-- Eats one envelope from the front of the input. What was eaten is looked at once more. -/
def eatChecked (p : Protocol) (input : Bytes) : Checked (Protocol × Except WireFault Eaten) :=
  if input.shorterThan p.magicSize then
    .ok (p, .error (.insufficient p.magicSize input.length))
  else do
    let magic ← Checked.range input 0 p.magicSize
    match p.find? magic with
    | none => .ok (p, .error .unknownMagic)
    | some i => do
      let e ← Checked.get p.envelopes i
      let decoded ← e.packet.decodeChecked input
      let staged : Protocol := ⟨p.envelopes.set i (e.stage decoded.staged)⟩
      match decoded.outcome with
      | .error fault => .ok (staged, .error fault)
      | .ok consumed => do
        let _ ← Checked.range input 0 consumed
        .ok (staged, .ok ⟨i, consumed⟩)

/-- Whatever arrives, eating stays in bounds, and it takes no more than there is. -/
theorem eatChecked_eq (p : Protocol) (input : Bytes) : p.eatChecked input = .ok (p.eat input) := by
  unfold eatChecked
  rcases p.eat_cases input with ⟨hshort, heat⟩ | ⟨hlong, hfind, heat⟩ |
    ⟨i, e, hlong, hfind, he, heat⟩
  · rw [if_pos ((Bytes.shorterThan_iff _ _).mpr hshort), heat]
  · have hshort : ¬ input.shorterThan p.magicSize = true := by
      rw [Bytes.shorterThan_iff]
      omega
    rw [if_neg hshort, Checked.range_front hlong, Checked.ok_bind, hfind, heat]
  · have hshort : ¬ input.shorterThan p.magicSize = true := by
      rw [Bytes.shorterThan_iff]
      omega
    rw [if_neg hshort, Checked.range_front hlong, Checked.ok_bind, hfind, heat]
    simp only [Checked.get_of_some he, Checked.ok_bind, Packet.decodeChecked_eq]
    cases hout : (e.packet.decode input).outcome with
    | error fault => rfl
    | ok consumed =>
      obtain ⟨hconsumed, hle, -⟩ := Packet.decode_ok hout
      have hroom : consumed ≤ input.length := by omega
      simp only [Checked.range_front hroom, Checked.ok_bind, Except.map]

end Protocol

end DataLink
