import DataLink.Proofs.ReadOnly
import Mathlib.Logic.Function.Iterate

/-!
# Sending and receiving on one protocol

A protocol and its cells are used in any order of calls: emitting, eating, delivering, failsafe, and
assignments by the surroundings. Emitting moves cadences and nonces, eating moves what is staged,
and neither has a part in what the other one does. So the two directions do not disturb each other.
-/

namespace DataLink

namespace Envelope

/-- An envelope takes its turn and what it stages in either order. -/
theorem advance_stage (e : Envelope) (values : Staged) :
    (e.stage values).advance = e.advance.stage values := rfl

end Envelope

namespace Protocol

/-- What is emitted depends on the packets alone, whatever is staged for them. -/
theorem emit_congr {p q : Protocol} (h : p.packets = q.packets) (cells : Cells) :
    p.emit cells = q.emit cells := by
  rw [emit_eq_packets, emit_eq_packets, h]

/-- A turn and an input come in either order. The cases are those of eating, and in each of them
the protocol eats after its turn as it does before. -/
theorem advance_eat (p : Protocol) (input : Bytes) :
    (p.advance.eat input).1 = (p.eat input).1.advance := by
  have hreaders : p.readers = p.advance.readers := p.readers_advance.symm
  have hsize : p.advance.magicSize = p.magicSize := magicSize_congr hreaders.symm
  have hfinds : p.advance.find? (input.take p.advance.magicSize) =
      p.find? (input.take p.magicSize) := by
    rw [hsize, find?_congr hreaders]
  rcases p.eat_cases input with ⟨hshort, hout⟩ | ⟨hlong, hfind, hout⟩ |
    ⟨i, e, hlong, hfind, he, hout⟩
  · rw [← hsize] at hshort
    rw [hout, eat, if_pos ((Bytes.shorterThan_iff _ _).mpr hshort)]
  · have hlong' : ¬ input.shorterThan p.advance.magicSize = true := by
      rw [Bytes.shorterThan_iff, hsize]
      omega
    rw [← hfinds] at hfind
    rw [hout, eat, if_neg hlong', hfind]
  · have hadvanced : p.advance.envelopes[i]? = some e.advance := by
      rw [advance, List.getElem?_map, he, Option.map_some]
    have hdecode : e.advance.packet.decode input = e.packet.decode input := by
      rw [e.packet_advance, Packet.decode_advance]
    rw [← hfinds] at hfind
    rw [hout, eat_of_find? (hsize ▸ hlong) hfind hadvanced, hdecode, advance, advance,
      List.map_set, Envelope.advance_stage]

end Protocol

/-- A protocol with the cells that it reads and writes. -/
structure Station where
  protocol : Protocol
  cells : Cells

/-- One use of a station. -/
inductive Call where
  | emit
  | eat (input : Bytes)
  | deliver (envelope : Nat)
  | failsafe
  /-- An assignment to a cell by the surroundings. -/
  | assign (write : Assignment)

/-- What a call returns. -/
inductive Answer where
  | sent (blob : Bytes)
  | eaten (outcome : Except WireFault Eaten)
  | done
  deriving DecidableEq

namespace Call

/-- Whether the call emits. -/
def isEmit : Call → Bool
  | .emit => true
  | _ => false

/-- Whether the call has the protocol write to cells. -/
def isDelivery : Call → Bool
  | .deliver _ | .failsafe => true
  | _ => false

/-- The assignment that the surroundings make. -/
def writes : Call → List Assignment
  | .assign write => [write]
  | _ => []

end Call

namespace Station

/-- One call: what it returns and what it leaves behind. -/
def call (s : Station) : Call → Answer × Station
  | .emit => (.sent (s.protocol.emit s.cells), ⟨s.protocol.advance, s.cells⟩)
  | .eat input => (.eaten (s.protocol.eat input).2, ⟨(s.protocol.eat input).1, s.cells⟩)
  | .deliver envelope => (.done, ⟨s.protocol, s.protocol.deliver envelope s.cells⟩)
  | .failsafe => (.done, ⟨s.protocol, s.protocol.failsafe s.cells⟩)
  | .assign write => (.done, ⟨s.protocol, s.cells.put write.cell write.value⟩)

/-- The station after calls in order. -/
def after (s : Station) (calls : List Call) : Station := calls.foldl (fun s c => (s.call c).2) s

/-- What the calls return, in order. -/
def answers (s : Station) : List Call → List Answer
  | [] => []
  | c :: rest => (s.call c).1 :: (s.call c).2.answers rest

/-- The first call comes before the others. -/
theorem after_cons (s : Station) (c : Call) (rest : List Call) :
    s.after (c :: rest) = (s.call c).2.after rest := rfl

/-- What a call returns is up to the station as the calls before have left it. -/
theorem getElem?_answers (s : Station) (calls : List Call) (k : Nat) :
    (s.answers calls)[k]? = calls[k]?.map fun c => ((s.after (calls.take k)).call c).1 := by
  induction calls generalizing s k with
  | nil => rfl
  | cons c rest ih =>
    cases k with
    | zero => rfl
    | succ k => exact ih (s.call c).2 k

/-! ### What calls leave alone -/

/-- No call changes how envelopes are read. -/
theorem readers_call (s : Station) (c : Call) :
    (s.call c).2.protocol.readers = s.protocol.readers := by
  cases c with
  | emit => exact s.protocol.readers_advance
  | eat input => exact s.protocol.readers_eat input
  | deliver | failsafe | assign => rfl

/-- Calls do not change how envelopes are read. -/
theorem readers_after (s : Station) (calls : List Call) :
    (s.after calls).protocol.readers = s.protocol.readers := by
  induction calls generalizing s with
  | nil => rfl
  | cons c rest ih => rw [after_cons, ih, readers_call]

/-- Only emitting moves the packets. -/
theorem packets_call (s : Station) (c : Call) :
    (s.call c).2.protocol.packets =
      if c.isEmit then s.protocol.packets.map Packet.advance else s.protocol.packets := by
  cases c with
  | emit => exact s.protocol.packets_advance
  | eat input => exact s.protocol.packets_eat input
  | deliver | failsafe | assign => rfl

/-- The packets are as if the protocol had emitted that many times and done nothing else. -/
theorem packets_after (s : Station) (calls : List Call) :
    (s.after calls).protocol.packets =
      (Protocol.advance^[calls.countP Call.isEmit] s.protocol).packets := by
  have hiterate (turns : Nat) : (Protocol.advance^[turns] s.protocol).packets =
      (List.map Packet.advance)^[turns] s.protocol.packets :=
    Function.Semiconj.iterate_right (fun p => p.packets_advance) turns s.protocol
  rw [hiterate]
  clear hiterate
  induction calls generalizing s with
  | nil => rfl
  | cons c rest ih =>
    rw [after_cons, ih, packets_call, List.countP_cons]
    cases hemit : c.isEmit with
    | false => rfl
    | true => rfl

/-- Emitting and eating change no cell. -/
theorem cells_call {s : Station} {c : Call} (h : c.isDelivery = false) :
    (s.call c).2.cells = s.cells.replay c.writes := by
  cases c with
  | emit | eat | assign => rfl
  | deliver | failsafe => cases h

/-- Without deliveries the cells are what the surroundings make of them. -/
theorem cells_after {s : Station} {calls : List Call} (h : ∀ c ∈ calls, c.isDelivery = false) :
    (s.after calls).cells = s.cells.replay (calls.flatMap Call.writes) := by
  induction calls generalizing s with
  | nil => rfl
  | cons c rest ih =>
    obtain ⟨hfirst, hrest⟩ := List.forall_mem_cons.mp h
    rw [after_cons, ih hrest, cells_call hfirst, List.flatMap_cons, Cells.replay_append]

/-- Full duplex. A station sends and eats in either order with the same blob, the same outcome and
the same station afterwards, and the cells stay as they are. In any sequence of calls, a blob
depends on the cells and on how often the station has emitted before, and what eating returns
depends on its input alone. Without deliveries, the cells are up to the surroundings. -/
theorem full_duplex (s : Station) :
    (∀ input,
      s.answers [.emit, .eat input] =
          [.sent (s.protocol.emit s.cells), .eaten (s.protocol.eat input).2] ∧
        s.answers [.eat input, .emit] =
          [.eaten (s.protocol.eat input).2, .sent (s.protocol.emit s.cells)] ∧
        s.after [.emit, .eat input] = s.after [.eat input, .emit] ∧
        (s.after [.emit]).cells = s.cells ∧ (s.after [.eat input]).cells = s.cells) ∧
    ∀ calls k,
      (calls[k]? = some .emit → (s.answers calls)[k]? = some (.sent
        ((Protocol.advance^[(calls.take k).countP Call.isEmit] s.protocol).emit
          (s.after (calls.take k)).cells))) ∧
      (∀ input, calls[k]? = some (.eat input) →
        (s.answers calls)[k]? = some (.eaten (s.protocol.eat input).2)) ∧
      ((∀ c ∈ calls.take k, c.isDelivery = false) →
        (s.after (calls.take k)).cells =
          s.cells.replay ((calls.take k).flatMap Call.writes)) := by
  constructor
  · intro input
    have heaten : (s.protocol.advance.eat input).2 = (s.protocol.eat input).2 :=
      Protocol.eat_outcome_congr s.protocol.readers_advance input
    have hsent : (s.protocol.eat input).1.emit s.cells = s.protocol.emit s.cells :=
      Protocol.emit_congr (s.protocol.packets_eat input) s.cells
    have hstation : s.after [.emit, .eat input] = s.after [.eat input, .emit] :=
      congrArg (Station.mk · s.cells) (s.protocol.advance_eat input)
    refine ⟨?_, ?_, hstation, rfl, rfl⟩
    · rw [← heaten]
      rfl
    · rw [← hsent]
      rfl
  · intro calls k
    refine ⟨fun hk => ?_, fun input hk => ?_, cells_after⟩
    · have hsent := Protocol.emit_congr (s.packets_after (calls.take k))
        (s.after (calls.take k)).cells
      rw [getElem?_answers, hk, Option.map_some, ← hsent]
      rfl
    · have heaten := Protocol.eat_outcome_congr (s.readers_after (calls.take k)) input
      rw [getElem?_answers, hk, Option.map_some, ← heaten]
      rfl

end Station

/-! ### A small system

Two rooms show each other a lamp. It serves for examples.
-/

namespace Intercom

/-- The magic of the lamp is not empty. -/
theorem magic_ne : ([0xAB] : Bytes) ≠ [] := by decide

/-- The lamp is sent on some turns. -/
theorem sendEvery_ne : (2 : UInt64) ≠ 0 := by decide

/-- The lamp is sent on every second turn. -/
def envelope : Envelope :=
  { header := ⟨[0xAB], 2, 0, 0, magic_ne, sendEvery_ne⟩
    packets := [.bits [.flag ⟨⟨"lamp", true, false⟩, false⟩]]
    staged := [none] }

/-- The lamp has no value yet. -/
def station : Station := ⟨⟨[envelope]⟩, Cells.empty.declare "lamp" .bool⟩

/-- The lamp is turned on, and between three turns one message arrives, and then a part of one. -/
def calls : List Call :=
  [.assign ⟨"lamp", some (.bool true)⟩, .emit, .eat [0xAB, 0], .emit, .eat [0xAB], .emit]

/-- What arrives is not delivered, so the last turn shows the lamp that was turned on here. -/
theorem full_duplex_intercom :
    (∀ c ∈ calls, c.isDelivery = false) ∧
      (station.answers calls)[4]? = some (.eaten (.error (.insufficient 2 1))) ∧
      (station.answers calls)[5]? = some (.sent [0xAB, 128]) := by
  have hcalm : ∀ c ∈ calls, c.isDelivery = false := by decide
  obtain ⟨-, hruns⟩ := Station.full_duplex station
  obtain ⟨-, heaten, -⟩ := hruns calls 4
  obtain ⟨hsent, -, hcells⟩ := hruns calls 5
  have hlamp := hcells fun c hc => hcalm c (List.mem_of_mem_take hc)
  refine ⟨hcalm, (heaten [0xAB] rfl).trans (by decide), (hsent rfl).trans ?_⟩
  rw [hlamp]
  decide

end Intercom

end DataLink
