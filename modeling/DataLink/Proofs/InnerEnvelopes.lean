import DataLink.Proofs.Cadence
import DataLink.Proofs.Emission
import DataLink.Proofs.Readers
import Mathlib.Data.Nat.Nth

/-!
# Envelopes inside envelopes

An envelope inside a packet has a cadence of its own, but its bytes count towards the packet's size
on every turn. So an envelope emits its size whenever it is due if and only if all envelopes inside
are meant for every turn. With any other tree there is a turn on which it emits less than that. What
it emits then is not enough for a receiver with the same tree.
-/

namespace DataLink

namespace Header

/-- The turns on which the envelope is emitted. -/
def DueOn (h : Header) (turn : Nat) : Prop := (Header.next^[turn] h).isDue = true

/-- Whether the envelope is due on a turn is found by counting up to this turn. -/
instance (h : Header) : DecidablePred h.DueOn := fun _ => inferInstanceAs (Decidable (_ = true))

/-- The envelope is emitted time and again. -/
theorem infinite_dueOn (h : Header) : {turn | h.DueOn turn}.Infinite := by
  refine Set.infinite_of_forall_exists_gt fun first => ?_
  obtain ⟨turns, hdue⟩ := (Header.next^[first + 1] h).exists_isDue
  rw [← Function.iterate_add_apply] at hdue
  exact ⟨turns + (first + 1), hdue, Nat.le_add_left _ _⟩

end Header

namespace Packet

/-- After some turns each packet of a sequence has seen as many. -/
theorem iterate_advance_sequence (packets : List Packet) (turns : Nat) :
    advance^[turns] (sequence packets) = sequence (advanceAll^[turns] packets) := by
  have hsequence : Function.Semiconj sequence advanceAll advance := fun _ => rfl
  exact ((hsequence.iterate_right turns).eq packets).symm

/-- After some turns each signed packet has seen as many, and the signature drew as many nonces. -/
theorem iterate_advance_signature (sig : Signature) (packets : List Packet) (turns : Nat) :
    advance^[turns] (signature sig packets) =
      signature (Signature.next^[turns] sig) (advanceAll^[turns] packets) := by
  induction turns with
  | zero => rfl
  | succ turns ih => simp only [Function.iterate_succ_apply', ih, advance]

/-- The packets inside an envelope count its emissions, not its turns. -/
theorem iterate_advance_envelope (header : Header) (packets : List Packet) (turns : Nat) :
    advance^[turns] (envelope header packets) =
      envelope (Header.next^[turns] header)
        (advanceAll^[Nat.count header.DueOn turns] packets) := by
  induction turns with
  | zero => rfl
  | succ turns ih =>
    rw [Function.iterate_succ_apply', ih, advance, ← Function.iterate_succ_apply' Header.next,
      Nat.count_succ]
    by_cases hdue : (Header.next^[turns] header).isDue = true
    · have hturn : header.DueOn turns := hdue
      rw [if_pos hdue, if_pos hturn, ← Function.iterate_succ_apply' advanceAll]
    · have hturn : ¬ header.DueOn turns := hdue
      rw [if_neg hdue, if_neg hturn]
      rfl

/-- Without packets there are none after any number of turns. -/
theorem iterate_advanceAll_nil (turns : Nat) : advanceAll^[turns] [] = [] :=
  Function.iterate_fixed rfl turns

/-- After some turns the first packet and the others have seen as many. -/
theorem iterate_advanceAll_cons (p : Packet) (rest : List Packet) (turns : Nat) :
    advanceAll^[turns] (p :: rest) = advance^[turns] p :: advanceAll^[turns] rest := by
  induction turns with
  | zero => rfl
  | succ turns ih => simp only [Function.iterate_succ_apply', ih, advanceAll]

mutual

/-- Every envelope inside is meant for every turn. -/
def EveryTurn : Packet → Prop
  | .field _ => True
  | .bits _ => True
  | .sequence packets => AllEveryTurn packets
  | .signature _ packets => AllEveryTurn packets
  | .envelope header packets => header.sendEvery = 1 ∧ AllEveryTurn packets

/-- Every envelope inside any of the packets is meant for every turn. -/
def AllEveryTurn : List Packet → Prop
  | [] => True
  | p :: rest => p.EveryTurn ∧ AllEveryTurn rest

end

mutual

/-- No envelope inside is ever left out if and only if all of them are meant for every turn. -/
theorem everyTurn_iff : ∀ p : Packet, p.EveryTurn ↔ ∀ turns, (advance^[turns] p).Due
  | .field _ => by
    refine iff_of_true trivial fun turns => ?_
    rw [Function.iterate_fixed rfl]
    trivial
  | .bits _ => by
    refine iff_of_true trivial fun turns => ?_
    rw [Function.iterate_fixed rfl]
    trivial
  | .sequence packets => by
    simp only [iterate_advance_sequence, EveryTurn, Due, allEveryTurn_iff packets]
  | .signature sig packets => by
    simp only [iterate_advance_signature, EveryTurn, Due, allEveryTurn_iff packets]
  | .envelope header packets => by
    simp only [iterate_advance_envelope, EveryTurn, Due, allEveryTurn_iff packets,
      header.sendEvery_eq_one_iff, forall_and]
    -- The packets inside count every turn, since the envelope is due on all of them.
    refine and_congr_right fun hdue => forall_congr' fun turns => ?_
    have hcount : Nat.count header.DueOn turns = turns :=
      Nat.count_iff_forall.mpr fun turn _ => hdue turn
    rw [hcount]

/-- Packets are due on every turn exactly if all they contain is. -/
theorem allEveryTurn_iff : ∀ packets : List Packet,
    AllEveryTurn packets ↔ ∀ turns, AllDue (advanceAll^[turns] packets)
  | [] => by
    refine iff_of_true trivial fun turns => ?_
    rw [iterate_advanceAll_nil]
    trivial
  | p :: rest => by
    simp only [iterate_advanceAll_cons, AllEveryTurn, AllDue, everyTurn_iff p,
      allEveryTurn_iff rest, forall_and]

end

end Packet

namespace Envelope

/-- After some turns the packet of an envelope has seen as many. -/
theorem packet_iterate_advance (e : Envelope) (turns : Nat) :
    (Envelope.advance^[turns] e).packet = Packet.advance^[turns] e.packet := by
  have hpacket : Function.Semiconj Envelope.packet Envelope.advance Packet.advance :=
    packet_advance
  exact (hpacket.iterate_right turns).eq e

/-- However many turns pass, an envelope is read as before. -/
theorem reader_iterate_advance (e : Envelope) (turns : Nat) :
    (Envelope.advance^[turns] e).reader = e.reader := by
  induction turns with
  | zero => rfl
  | succ turns ih => rw [Function.iterate_succ_apply', reader_advance, ih]

/-- An envelope's size is the same on all turns. -/
theorem size_iterate_advance (e : Envelope) (turns : Nat) :
    (Envelope.advance^[turns] e).size = e.size := by
  induction turns with
  | zero => rfl
  | succ turns ih =>
    rw [Function.iterate_succ_apply', size, packet_advance, Packet.size_advance, ← size, ih]

/-- The packets of an envelope after some turns. -/
theorem packets_iterate_advance (e : Envelope) (turns : Nat) :
    (Envelope.advance^[turns] e).packets =
      Packet.advanceAll^[Nat.count e.header.DueOn turns] e.packets := by
  have hpacket := e.packet_iterate_advance turns
  rw [packet, packet, Packet.iterate_advance_envelope, Packet.envelope.injEq] at hpacket
  exact hpacket.2

/-- On the turns on which an envelope is due, its packets pass through all of their states. -/
theorem forall_packets_iff (e : Envelope) (holds : List Packet → Prop) :
    (∀ turns, (Envelope.advance^[turns] e).isDue = true →
        holds (Envelope.advance^[turns] e).packets) ↔
      ∀ emissions, holds (Packet.advanceAll^[emissions] e.packets) := by
  constructor
  · intro hall emissions
    have hdue := Nat.nth_mem_of_infinite e.header.infinite_dueOn emissions
    have hturn := hall (Nat.nth e.header.DueOn emissions)
    rw [packets_iterate_advance, Nat.count_nth_of_infinite e.header.infinite_dueOn] at hturn
    apply hturn
    rw [isDue, header_iterate_advance]
    exact hdue
  · intro hall turns _
    rw [packets_iterate_advance]
    exact hall _

/-- A due envelope emits its size unless an envelope inside is left out. -/
theorem length_emit_eq_iff {e : Envelope} (hdue : e.isDue = true) (cells : Cells) :
    (e.emit cells).length = e.size ↔ Packet.AllDue e.packets :=
  (Packet.length_emit_eq_iff cells e.packet).trans (and_iff_right hdue)

/-- When an envelope emits its size. It does so whenever it is due if and only if all envelopes
inside are meant for every turn. On any turn on which it is due, a receiver with the same tree takes
in what is emitted, whatever follows, unless an envelope inside is left out. If one is left out,
less than the size is emitted, and for a receiver this is not enough. -/
theorem emits_size_iff_allEveryTurn (e : Envelope) :
    ((∀ turns cells, (Envelope.advance^[turns] e).isDue = true →
        ((Envelope.advance^[turns] e).emit cells).length = e.size) ↔
      Packet.AllEveryTurn e.packets) ∧
    ∀ turns cells, (Envelope.advance^[turns] e).isDue = true →
      (Packet.AllDue (Envelope.advance^[turns] e).packets →
        ((Envelope.advance^[turns] e).emit cells).length = e.size ∧
        ∀ more, e.packet.decode ((Envelope.advance^[turns] e).emit cells ++ more) =
          ⟨Packet.echoes e.leaves cells, .ok e.size⟩) ∧
      (¬ Packet.AllDue (Envelope.advance^[turns] e).packets →
        ((Envelope.advance^[turns] e).emit cells).length < e.size ∧
        e.packet.decode ((Envelope.advance^[turns] e).emit cells) =
          ⟨[], .error (.insufficient e.size
            ((Envelope.advance^[turns] e).emit cells).length)⟩) := by
  have hlength (turns : Nat) (cells : Cells) (hdue : (Envelope.advance^[turns] e).isDue = true) :
      ((Envelope.advance^[turns] e).emit cells).length = e.size ↔
        Packet.AllDue (Envelope.advance^[turns] e).packets := by
    rw [← length_emit_eq_iff hdue cells, size_iterate_advance]
  refine ⟨?_, ?_⟩
  · rw [Packet.allEveryTurn_iff, ← e.forall_packets_iff Packet.AllDue]
    constructor
    · intro hall turns hdue
      exact (hlength turns .empty hdue).mp (hall turns .empty hdue)
    · intro hall turns cells hdue
      exact (hlength turns cells hdue).mpr (hall turns hdue)
  · intro turns cells hdue
    refine ⟨fun hinside => ⟨(hlength turns cells hdue).mpr hinside, fun more => ?_⟩,
      fun hinside => ?_⟩
    · have hreader := e.reader_iterate_advance turns
      have hdecode : (Envelope.advance^[turns] e).packet.decode = e.packet.decode :=
        congrArg Reader.decode hreader
      have hleaves : (Envelope.advance^[turns] e).leaves = e.leaves :=
        congrArg Reader.leaves hreader
      have hwhole : (Envelope.advance^[turns] e).packet.Due := ⟨hdue, hinside⟩
      have hback := Packet.decode_emit cells hwhole more
      rw [hdecode] at hback
      rw [emit, hback, ← size_iterate_advance e turns, ← hleaves]
      rfl
    · have hle := Packet.length_emit_le cells (Envelope.advance^[turns] e).packet
      have hne := mt (hlength turns cells hdue).mp hinside
      have hsize := e.size_iterate_advance turns
      rw [size] at hsize
      rw [hsize] at hle
      have hlt : ((Envelope.advance^[turns] e).emit cells).length < e.size :=
        Nat.lt_of_le_of_ne hle hne
      exact ⟨hlt, Packet.decode_of_lt _ hlt⟩

/-- An envelope for every turn around one for every second turn. On the first turn the inner one is
not due. The magic of the outer one is all that is sent, and a receiver waits for two more bytes. -/
theorem magic_alone_for_inner_envelope :
    ∃ inner e, Header.new [0xBB] 2 1 = .ok inner ∧
      Envelope.new [0xAA] 1 0 [.envelope inner [.bits [.flag ⟨⟨"lamp", true, false⟩, false⟩]]] =
        .ok e ∧
      e.isDue = true ∧ e.emit .empty = [0xAA] ∧ e.size = 3 ∧
      (e.packet.decode (e.emit .empty)).outcome = .error (.insufficient 3 1) :=
  ⟨_, _, rfl, rfl, by decide, by decide, by decide, by decide⟩

end Envelope

end DataLink
