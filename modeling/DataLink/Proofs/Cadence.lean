import DataLink.Protocol
import Mathlib.Data.Nat.ModEq
import Mathlib.Logic.Function.Iterate

/-!
# The cadence of an envelope

An envelope counts its turns modulo `2 ^ 64`, and the sum of turn and offset wraps around before it
is divided. It is emitted on every turn that the exact sum calls for if its divisor is a power of
two. With any other divisor it falls out of step where the sum wraps around, and nowhere else.
-/

namespace DataLink

/-- Of `n` consecutive naturals exactly one is a multiple of `n`. -/
theorem existsUnique_dvd_add {n : Nat} (hn : 0 < n) (start : Nat) :
    ∃! j, j < n ∧ n ∣ start + j := by
  have hlt := Nat.mod_lt start hn
  have hstart := Nat.div_add_mod start n
  have hnext : start + (n - start % n) ≡ 0 [MOD n] := by
    refine Nat.modEq_zero_iff_dvd.mpr ⟨start / n + 1, ?_⟩
    rw [Nat.mul_add, Nat.mul_one]
    omega
  refine ⟨(n - start % n) % n, ⟨Nat.mod_lt _ hn, ?_⟩, ?_⟩
  · exact Nat.modEq_zero_iff_dvd.mp (((Nat.mod_modEq _ n).add_left start).trans hnext)
  · rintro j ⟨hj, hdvd⟩
    have hsame : start + j ≡ start + (n - start % n) [MOD n] :=
      (Nat.modEq_zero_iff_dvd.mpr hdvd).trans hnext.symm
    have hmod : j % n = (n - start % n) % n := hsame.add_left_cancel' start
    rwa [Nat.mod_eq_of_lt hj] at hmod

namespace Header

/-- The cadence after some emissions. -/
theorem iterate_next (h : Header) (turns : Nat) :
    Header.next^[turns] h = { h with turns := h.turns + UInt64.ofNat turns } := by
  induction turns with
  | zero => simp
  | succ turns ih =>
    rw [Function.iterate_succ_apply', ih, next]
    simp [UInt64.ofNat_add, UInt64.add_assoc]

/-- An envelope comes due, at the latest once its turns have wrapped around. -/
theorem exists_isDue (h : Header) : ∃ turns, (Header.next^[turns] h).isDue = true := by
  refine ⟨(-(h.turns + h.sendOffset)).toNat, ?_⟩
  have hzero : h.turns + -(h.turns + h.sendOffset) + h.sendOffset = 0 := by grind
  rw [iterate_next, isDue, UInt64.ofNat_toNat, hzero]
  simp

/-- An envelope is due when its counter and offset, added modulo `2 ^ 64`, are a multiple of its
period. -/
theorem isDue_iff (h : Header) :
    h.isDue = true ↔ h.sendEvery.toNat ∣ (h.turns.toNat + h.sendOffset.toNat) % 2 ^ 64 := by
  rw [isDue, decide_eq_true_eq, ← UInt64.toNat_inj, UInt64.toNat_mod, UInt64.toNat_add,
    UInt64.toNat_zero, Nat.dvd_iff_mod_eq_zero]

/-- Whether an envelope is due after some turns. -/
theorem isDue_iterate_next (h : Header) (turns : Nat) :
    (Header.next^[turns] h).isDue = true ↔
      h.sendEvery.toNat ∣ (h.turns.toNat + turns + h.sendOffset.toNat) % 2 ^ 64 := by
  rw [iterate_next, isDue_iff]
  simp only [UInt64.toNat_add, UInt64.toNat_ofNat']
  rw [Nat.add_mod_mod, Nat.mod_add_mod]

/-- Every envelope has a period. -/
theorem sendEvery_pos (h : Header) : 0 < h.sendEvery.toNat :=
  Nat.pos_of_ne_zero fun hzero => h.sendEvery_ne (UInt64.toNat_inj.mp hzero)

/-- Only an envelope that is meant for every turn is due on all of them. -/
theorem sendEvery_eq_one_iff (h : Header) :
    h.sendEvery = 1 ↔ ∀ turns, (Header.next^[turns] h).isDue = true := by
  constructor
  · intro hone turns
    rw [isDue_iterate_next, hone]
    exact one_dvd _
  · intro hdue
    -- On some turn the sum is one, which has no other divisor.
    have hlt := h.turns.toNat_lt
    have hlt' := h.sendOffset.toNat_lt
    have hturn := (h.isDue_iterate_next
      (2 * 2 ^ 64 + 1 - h.turns.toNat - h.sendOffset.toNat)).mp (hdue _)
    have hsum : (h.turns.toNat + (2 * 2 ^ 64 + 1 - h.turns.toNat - h.sendOffset.toNat) +
        h.sendOffset.toNat) % 2 ^ 64 = 1 := by omega
    rw [hsum] at hturn
    exact UInt64.toNat_inj.mp (Nat.dvd_one.mp hturn)

end Header

namespace Envelope

/-- The cadence of an envelope depends on nothing else. -/
theorem header_iterate_advance (e : Envelope) (turns : Nat) :
    (Envelope.advance^[turns] e).header = Header.next^[turns] e.header := by
  have hheader : Function.Semiconj Envelope.header Envelope.advance Header.next := fun _ => rfl
  exact (hheader.iterate_right turns).eq e

/-- An envelope that is due emits at least its magic. -/
theorem emit_ne_nil_iff (e : Envelope) (cells : Cells) : e.emit cells ≠ [] ↔ e.isDue = true := by
  rw [emit, packet, Packet.emit, isDue]
  split
  · next hdue => simp [hdue, e.header.magic_ne]
  · next hdue => simp [hdue]

/-- The bytes of the turn of a number, counted from zero, when the cells change with the turns. -/
def emission (e : Envelope) (cells : Nat → Cells) (turn : Nat) : Bytes :=
  (Envelope.advance^[turn] e).emit (cells turn)

/-- Something is emitted on a turn exactly if the counter that is reached on it is due. -/
theorem emission_ne_nil_iff (e : Envelope) (cells : Nat → Cells) (turn : Nat) :
    e.emission cells turn ≠ [] ↔
      e.header.sendEvery.toNat ∣
        (e.header.turns.toNat + turn + e.header.sendOffset.toNat) % 2 ^ 64 := by
  rw [emission, emit_ne_nil_iff, isDue, header_iterate_advance, Header.isDue_iterate_next]

/-- What a new envelope's header is. -/
theorem header_of_new {magic : Bytes} {sendEvery sendOffset : UInt64} {packets : List Packet}
    {e : Envelope} (h : Envelope.new magic sendEvery sendOffset packets = .ok e) :
    e.header.magic = magic ∧ e.header.sendEvery = sendEvery ∧ e.header.sendOffset = sendOffset ∧
      e.header.turns = 0 := by
  unfold Envelope.new Header.new at h
  split at h
  · split at h
    · cases h
      exact ⟨rfl, rfl, rfl, rfl⟩
    · cases h
  · cases h

/-- When a new envelope is emitted. The divisor divides the sum of turn and offset after that sum
has wrapped around. So the exact sum decides as long as it is below `2 ^ 64`, and it decides on all
turns if and only if the divisor divides `2 ^ 64`. As many consecutive turns as the divisor says
have exactly one emission, unless the sum wraps around among them and the divisor does not divide
`2 ^ 64`. -/
theorem cadence_exact_iff_dvd {magic : Bytes} {sendEvery sendOffset : UInt64}
    {packets : List Packet} {e : Envelope}
    (h : Envelope.new magic sendEvery sendOffset packets = .ok e) (cells : Nat → Cells) :
    (∀ turn, e.emission cells turn ≠ [] ↔
      (turn + sendOffset.toNat) % 2 ^ 64 % sendEvery.toNat = 0) ∧
    (∀ turn, turn + sendOffset.toNat < 2 ^ 64 →
      (e.emission cells turn ≠ [] ↔ (turn + sendOffset.toNat) % sendEvery.toNat = 0)) ∧
    ((∀ turn, e.emission cells turn ≠ [] ↔ (turn + sendOffset.toNat) % sendEvery.toNat = 0) ↔
      sendEvery.toNat ∣ 2 ^ 64) ∧
    (∀ first, (sendEvery.toNat ∣ 2 ^ 64 ∨
        (first + sendOffset.toNat) % 2 ^ 64 + sendEvery.toNat ≤ 2 ^ 64) →
      ∃! turn, turn < sendEvery.toNat ∧ e.emission cells (first + turn) ≠ []) := by
  obtain ⟨-, hevery, hoffset, hturns⟩ := header_of_new h
  have hpos : 0 < sendEvery.toNat := hevery ▸ e.header.sendEvery_pos
  have hlt := sendOffset.toNat_lt
  have hwrapped (turn : Nat) : e.emission cells turn ≠ [] ↔
      sendEvery.toNat ∣ (turn + sendOffset.toNat) % 2 ^ 64 := by
    rw [emission_ne_nil_iff, hevery, hoffset, hturns, UInt64.toNat_zero, Nat.zero_add]
  have hexact (hdvd : sendEvery.toNat ∣ 2 ^ 64) (turn : Nat) : e.emission cells turn ≠ [] ↔
      sendEvery.toNat ∣ turn + sendOffset.toNat := by
    rw [hwrapped, Nat.dvd_mod_iff hdvd]
  refine ⟨?_, ?_, ⟨?_, ?_⟩, ?_⟩
  · intro turn
    rw [hwrapped, Nat.dvd_iff_mod_eq_zero]
  · intro turn hsmall
    rw [hwrapped, Nat.mod_eq_of_lt hsmall, Nat.dvd_iff_mod_eq_zero]
  · intro hall
    -- The sum is `2 ^ 64` on one turn. The envelope is emitted then, whatever its divisor.
    have hsum : 2 ^ 64 - sendOffset.toNat + sendOffset.toNat = 2 ^ 64 := by omega
    have hemitted := hwrapped (2 ^ 64 - sendOffset.toNat)
    rw [hsum, Nat.mod_self, hall, hsum] at hemitted
    exact Nat.dvd_of_mod_eq_zero (hemitted.mpr (dvd_zero _))
  · intro hdvd turn
    rw [hexact hdvd, Nat.dvd_iff_mod_eq_zero]
  · rintro first (hdvd | hroom)
    · have hunique := existsUnique_dvd_add hpos (first + sendOffset.toNat)
      refine (existsUnique_congr fun turn => ?_).mp hunique
      rw [hexact hdvd, Nat.add_right_comm]
    · have hunique := existsUnique_dvd_add hpos ((first + sendOffset.toNat) % 2 ^ 64)
      refine (existsUnique_congr fun turn => and_congr_right fun hturn => ?_).mp hunique
      have hsum : (first + turn + sendOffset.toNat) % 2 ^ 64 =
          (first + sendOffset.toNat) % 2 ^ 64 + turn := by omega
      rw [hwrapped, hsum]

/-- One flag on every third turn, with an offset that shifts it by one turn. -/
theorem cadence_exact_iff_dvd_third :
    ∃ e, Envelope.new [0xAB] 3 4 [.bits [.flag ⟨⟨"lamp", true, false⟩, false⟩]] = .ok e ∧
      (e.emission (fun _ => .empty) 2 ≠ [] ↔ (2 + 4) % 3 = 0) ∧
      ∃! turn, turn < 3 ∧ e.emission (fun _ => .empty) (7 + turn) ≠ [] := by
  obtain ⟨e, he⟩ : ∃ e, Envelope.new [0xAB] 3 4
      [.bits [.flag ⟨⟨"lamp", true, false⟩, false⟩]] = .ok e := ⟨_, rfl⟩
  obtain ⟨-, hsmall, -, hwindow⟩ := cadence_exact_iff_dvd he fun _ => .empty
  exact ⟨e, he, hsmall 2 (by decide), hwindow 7 (.inr (by decide))⟩

/-- With the greatest offset the same flag is sent on the first turn and again on the second one,
where the exact sum is no multiple of three. -/
theorem emitted_twice_in_three_turns :
    ∃ e, Envelope.new [0xAB] 3 18446744073709551615
        [.bits [.flag ⟨⟨"lamp", true, false⟩, false⟩]] = .ok e ∧
      e.emission (fun _ => .empty) 0 = [0xAB, 0] ∧ e.emission (fun _ => .empty) 1 = [0xAB, 0] ∧
      (1 + 18446744073709551615) % 3 ≠ 0 :=
  ⟨_, rfl, by decide, by decide, by decide⟩

end Envelope

end DataLink
