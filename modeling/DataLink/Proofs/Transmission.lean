import DataLink.Proofs.Eating
import DataLink.Proofs.Emission

/-!
# Transmission

A receiver takes in what a sender emits on one turn, if its envelopes are read like the
sender's are written. It eats the sender's due envelopes one after another and delivers each
before it eats the next. What it assigns to cells depends only on the sender's cells.
-/

namespace DataLink

/-- The value assigned to the receiver's cell when the value of the sender's cell was sent. The
offset of a float is added back, which rounds again. -/
noncomputable def Leaf.arrival : Leaf → Option Value → Option Value
  | .field (.float f), sent => (f.echo sent).map fun x => .float (x.add (f.offset.getD .zero))
  | leaf, sent => leaf.echo sent

/-- The assignments that a leaf makes at the receiver, none if the cell is retained and nil
arrives. -/
noncomputable def Leaf.relays (leaf : Leaf) (cells : Cells) : List Assignment :=
  let arrival := leaf.arrival (cells.value? leaf.binding.cell)
  if arrival.isNone && leaf.binding.retained then [] else [⟨leaf.binding.cell, arrival⟩]

/-- What arrives is delivered for what is staged. -/
theorem Leaf.arrival_eq (leaf : Leaf) (sent : Option Value) :
    leaf.arrival sent = (leaf.echo sent).map leaf.restore := by
  cases leaf with
  | field f =>
    cases f with
    | signed f => rfl
    | unsigned f => rfl
    | float f =>
      rw [arrival, echo, Option.map_map]
      rfl
  | source s => cases s <;> rfl

/-- What arrives for a leaf is of the leaf's kind. -/
theorem Leaf.kind_arrival {leaf : Leaf} {sent : Option Value} {v : Value}
    (h : leaf.arrival sent = some v) : v.kind = leaf.kind := by
  cases leaf with
  | field f =>
    cases f with
    | signed f =>
      cases h
      rfl
    | unsigned f =>
      cases h
      rfl
    | float f =>
      obtain ⟨x, -, rfl⟩ := Option.map_eq_some_iff.mp h
      rfl
  | source s =>
    cases s with
    | flag s =>
      cases h
      rfl
    | digits s =>
      cases h
      rfl

/-- An assignment at the receiver is to the leaf's cell and of what arrives. -/
theorem Leaf.eq_of_mem_relays {leaf : Leaf} {cells : Cells} {w : Assignment}
    (h : w ∈ leaf.relays cells) :
    w = ⟨leaf.binding.cell, leaf.arrival (cells.value? leaf.binding.cell)⟩ := by
  simp only [relays] at h
  split at h
  · cases h
  · exact List.mem_singleton.mp h

/-- What a receiver takes from an input. -/
structure Reception where
  eaten : List Eaten
  /-- Why eating ended before the input did. -/
  fault : Option WireFault
  rest : Bytes
  cells : Cells

namespace Protocol

/-- Eats envelopes from an input and delivers each, until nothing is left or a fault occurs.
The first argument bounds the steps. -/
def receive : Nat → Protocol → Cells → Bytes → Reception
  | 0, _, cells, input => ⟨[], none, input, cells⟩
  | steps + 1, p, cells, input =>
    if input = [] then ⟨[], none, [], cells⟩
    else
      match p.eat input with
      | (_, .error fault) => ⟨[], some fault, input, cells⟩
      | (q, .ok eaten) =>
        let others := receive steps q (q.deliver eaten.envelope cells) (input.drop eaten.consumed)
        { others with eaten := eaten :: others.eaten }

/-- The envelopes to be emitted on the coming turn, with their places. -/
def due (p : Protocol) : List (Envelope × Nat) := p.envelopes.zipIdx.filter fun e => e.1.isDue

/-- The leaves of the envelope at a place. -/
def leavesAt (p : Protocol) (place : Nat) : List Leaf :=
  match p.envelopes[place]? with
  | some e => e.leaves
  | none => []

/-- The assignments that a receiver makes for what a sender emits, in wire order. -/
noncomputable def relays (receiver sender : Protocol) (cells : Cells) : List Assignment :=
  sender.due.flatMap fun e => (receiver.leavesAt e.2).flatMap fun leaf => leaf.relays cells

/-- States that a protocol can be brought to by emitting and eating. -/
inductive Reaches (p : Protocol) : Protocol → Prop where
  | start : p.Reaches p
  | advance {q : Protocol} (h : p.Reaches q) : p.Reaches q.advance
  | eat {q : Protocol} (h : p.Reaches q) (input : Bytes) : p.Reaches (q.eat input).1

/-- Magics are distinct and of one length. -/
structure Distinct (p : Protocol) : Prop where
  length : ∀ e ∈ p.envelopes, e.header.magic.length = p.magicSize
  nodup : (p.envelopes.map fun e => e.header.magic).Nodup

/-- No envelope has an envelope inside. -/
def Plain (p : Protocol) : Prop := ∀ e ∈ p.envelopes, Packet.AllPlain e.packets

end Protocol

/-- A receiver's envelope is read as a sender's is written. It writes its cells. -/
structure Reader.Mirrors (sender receiver : Reader) : Prop where
  magic : receiver.magic = sender.magic
  decode : receiver.decode = sender.decode
  echoes : ∀ cells, Packet.echoes receiver.leaves cells = Packet.echoes sender.leaves cells
  writable : ∀ leaf ∈ receiver.leaves, leaf.binding.writable = true

/-- What is delivered through a writable binding is what arrives. -/
theorem Leaf.deliveries_echo {leaf : Leaf} (h : leaf.binding.writable = true) (cells : Cells) :
    leaf.deliveries (leaf.echo (cells.value? leaf.binding.cell)) = leaf.relays cells := by
  simp only [deliveries, Binding.deliveries, Binding.writes, if_pos h, relays, arrival_eq]

/-- Delivering what arrives at writable leaves relays the sender's cells. -/
theorem Staged.writes_echoes {leaves : List Leaf}
    (h : ∀ leaf ∈ leaves, leaf.binding.writable = true) (cells : Cells) :
    writes leaves (Packet.echoes leaves cells) =
      leaves.flatMap fun leaf => leaf.relays cells := by
  induction leaves with
  | nil => rfl
  | cons leaf rest ih =>
    obtain ⟨hfirst, hrest⟩ := List.forall_mem_cons.mp h
    have hothers := ih hrest
    simp only [writes, Packet.echoes, List.map_cons, List.zip_cons_cons, List.flatMap_cons]
      at hothers ⊢
    rw [Leaf.deliveries_echo hfirst, hothers]

namespace Envelope

/-- A due envelope decodes what it emits, whatever follows. -/
theorem decode_emit {e : Envelope} (hplain : Packet.AllPlain e.packets) (hdue : e.isDue = true)
    (cells : Cells) (more : Bytes) :
    e.packet.decode (e.emit cells ++ more) = ⟨Packet.echoes e.leaves cells, .ok e.size⟩ := by
  have hwhole : e.packet.Due := ⟨hdue, Packet.allDue_of_plain hplain⟩
  exact Packet.decode_emit cells hwhole more

/-- A due envelope that is plain is as long as its size says. -/
theorem length_emit {e : Envelope} (hplain : Packet.AllPlain e.packets) (hdue : e.isDue = true)
    (cells : Cells) : (e.emit cells).length = e.size :=
  (Packet.length_emit_eq_iff cells e.packet).mpr ⟨hdue, Packet.allDue_of_plain hplain⟩

/-- An envelope that is not due is not emitted. -/
theorem emit_of_not_due {e : Envelope} (hdue : e.isDue = false) (cells : Cells) :
    e.emit cells = [] := by
  have hnot : ¬ e.header.isDue = true := Bool.not_eq_true _ ▸ hdue
  exact if_neg hnot

end Envelope

/-- A receiver reads every envelope as a sender of the same layout writes it. -/
def Protocol.Mirrors (sender receiver : Protocol) : Prop :=
  ∀ (i : Nat) (r : Reader), sender.readers[i]? = some r →
    ∃ r', receiver.readers[i]? = some r' ∧ r.Mirrors r'

namespace Protocol

variable {p q : Protocol}

/-- Emitting and eating keep how envelopes are read. -/
theorem Reaches.readers (h : p.Reaches q) : q.readers = p.readers := by
  induction h with
  | start => rfl
  | advance _ ih => rw [readers_advance, ih]
  | eat _ input ih => rw [readers_eat, ih]

/-- What is reached in two stretches is reached. -/
theorem Reaches.trans {r : Protocol} (h : p.Reaches q) (h' : q.Reaches r) :
    p.Reaches r := by
  induction h' with
  | start => exact h
  | advance _ ih => exact .advance ih
  | eat _ input ih => exact .eat ih input

/-- A plain protocol stays plain. -/
theorem Reaches.plain (h : p.Reaches q) (hplain : p.Plain) : q.Plain := by
  induction h with
  | start => exact hplain
  | advance _ ih =>
    intro e he
    obtain ⟨before, hbefore, rfl⟩ := List.mem_map.mp he
    have hpackets := ih before hbefore
    unfold Envelope.advance
    cases hdue : before.header.isDue with
    | true => exact Packet.allPlain_advanceAll hpackets
    | false => exact hpackets
  | @eat q _ input ih =>
    rcases q.eat_cases input with ⟨-, hout⟩ | ⟨-, -, hout⟩ | ⟨i, e, -, -, he, hout⟩
    · rwa [hout]
    · rwa [hout]
    · rw [hout]
      intro f hf
      rcases List.mem_or_eq_of_mem_set hf with hold | rfl
      · exact ih f hold
      · exact ih e (List.mem_of_getElem? he)

/-- Whether magics are distinct depends on how envelopes are read. -/
theorem Distinct.congr (h : p.Distinct) (hreaders : p.readers = q.readers) : q.Distinct := by
  have hmagics (p : Protocol) :
      p.envelopes.map (fun e => e.header.magic) = p.readers.map Reader.magic := by
    rw [readers, List.map_map]
    rfl
  constructor
  · intro e he
    have hmem : e.header.magic ∈ q.readers.map Reader.magic := by
      rw [← hmagics]
      exact List.mem_map_of_mem he
    rw [← hreaders, ← hmagics] at hmem
    obtain ⟨f, hf, hmagic⟩ := List.mem_map.mp hmem
    rw [← hmagic, h.length f hf, magicSize_congr hreaders]
  · rw [hmagics, ← hreaders, ← hmagics]
    exact h.nodup

/-- An envelope is found by its magic. -/
theorem Distinct.find? (h : p.Distinct) {i : Nat} {e : Envelope} (he : p.envelopes[i]? = some e) :
    p.find? e.header.magic = some i := by
  obtain ⟨hi, rfl⟩ := List.getElem?_eq_some_iff.mp he
  refine List.findIdx?_eq_some_iff_getElem.mpr ⟨hi, decide_eq_true rfl, ?_⟩
  intro j hj hsame
  have hne := List.pairwise_iff_getElem.mp h.nodup j i (by rw [List.length_map]; omega)
    (by rwa [List.length_map]) hj
  rw [List.getElem_map, List.getElem_map] at hne
  exact hne (of_decide_eq_true hsame)

variable {sender receiver : Protocol}

/-- Every envelope of a sender has its counterpart at the receiver. -/
theorem Mirrors.envelope (h : sender.Mirrors receiver) {e : Envelope} {i : Nat}
    (he : sender.envelopes[i]? = some e) :
    ∃ f, receiver.envelopes[i]? = some f ∧ e.reader.Mirrors f.reader := by
  have hreader : sender.readers[i]? = some e.reader := by
    rw [readers, List.getElem?_map, he, Option.map_some]
  obtain ⟨r, hr, hmirror⟩ := h i _ hreader
  rw [readers, List.getElem?_map, Option.map_eq_some_iff] at hr
  obtain ⟨f, hf, rfl⟩ := hr
  exact ⟨f, hf, hmirror⟩

/-- A receiver eats one of the sender's due envelopes as a whole, and stages what arrives. -/
theorem eat_emit (hdistinct : receiver.Distinct) (hplain : sender.Plain)
    (hmirrors : sender.Mirrors receiver) {e : Envelope} {i : Nat}
    (he : sender.envelopes[i]? = some e) (hdue : e.isDue = true) (cells : Cells) (more : Bytes) :
    (receiver.eat (e.emit cells ++ more)).2 = .ok ⟨i, e.size⟩ ∧
      (receiver.eat (e.emit cells ++ more)).1.writes i =
        (receiver.leavesAt i).flatMap fun leaf => leaf.relays cells := by
  obtain ⟨f, hf, hmirror⟩ := hmirrors.envelope he
  have hmagic : f.header.magic = e.header.magic := hmirror.magic
  have hemit : e.emit cells = f.header.magic ++ Packet.emitAll cells e.packets := by
    rw [hmagic]
    exact if_pos hdue
  have hsize := hdistinct.length f (List.mem_of_getElem? hf)
  have hlong : receiver.magicSize ≤ (e.emit cells ++ more).length := by
    rw [hemit, List.length_append, List.length_append]
    omega
  have hfind : receiver.find? ((e.emit cells ++ more).take receiver.magicSize) = some i := by
    rw [hemit, List.append_assoc, List.take_left' hsize, hdistinct.find? hf]
  have hdecode : f.packet.decode (e.emit cells ++ more) =
      ⟨Packet.echoes f.leaves cells, .ok e.size⟩ := by
    have hsame : f.packet.decode = e.packet.decode := hmirror.decode
    have hechoes : Packet.echoes f.leaves cells = Packet.echoes e.leaves cells :=
      hmirror.echoes cells
    rw [hsame, hechoes, e.decode_emit (hplain e (List.mem_of_getElem? he)) hdue]
  have hok : (receiver.eat (e.emit cells ++ more)).2 = .ok ⟨i, e.size⟩ := by
    rw [eat_of_find? hlong hfind hf, hdecode]
    rfl
  refine ⟨hok, ?_⟩
  obtain ⟨f', hf', -, -, -, hwrites⟩ := eat_ok hok
  obtain rfl : f' = f := Option.some.inj (hf'.symm.trans hf)
  have hleaves : receiver.leavesAt i = f'.leaves := by rw [leavesAt, hf]
  rw [hwrites, hdecode, hleaves]
  exact Staged.writes_echoes hmirror.writable cells

/-- The leaves of an envelope depend on how it is read. -/
theorem leavesAt_congr (h : p.readers = q.readers) (i : Nat) : p.leavesAt i = q.leavesAt i := by
  have hleaves (p : Protocol) : p.leavesAt i = (p.readers[i]?.map Reader.leaves).getD [] := by
    rw [leavesAt, readers, List.getElem?_map]
    cases p.envelopes[i]? <;> rfl
  rw [hleaves, hleaves, h]

/-- Whether protocols mirror each other depends on how their envelopes are read. -/
theorem Mirrors.congr (h : p.Mirrors q) (hsender : p.readers = sender.readers)
    (hreceiver : q.readers = receiver.readers) : sender.Mirrors receiver := by
  intro i r hr
  rw [← hsender] at hr
  rw [← hreceiver]
  exact h i r hr

/-- A receiver takes in due envelopes one after the other, until nothing is left. -/
theorem receive_emits (hdistinct : receiver.Distinct) (hplain : sender.Plain)
    (hmirrors : sender.Mirrors receiver) (cells : Cells) (found : Cells) {steps : Nat}
    {emitted : List (Envelope × Nat)}
    (h : ∀ e ∈ emitted, sender.envelopes[e.2]? = some e.1 ∧ e.1.isDue = true)
    (hsteps : (emitted.flatMap fun e => e.1.emit cells).length ≤ steps) :
    receiver.receive steps found (emitted.flatMap fun e => e.1.emit cells) =
      ⟨emitted.map fun e => ⟨e.2, e.1.size⟩, none, [],
        found.replay (emitted.flatMap fun e =>
          (receiver.leavesAt e.2).flatMap fun leaf => leaf.relays cells)⟩ := by
  induction emitted generalizing receiver found steps with
  | nil => cases steps <;> rfl
  | cons e rest ih =>
    obtain ⟨⟨he, hdue⟩, hrest⟩ := List.forall_mem_cons.mp h
    have hlength := Envelope.length_emit (hplain e.1 (List.mem_of_getElem? he)) hdue cells
    have hpos := e.1.size_pos
    obtain ⟨hok, hwrites⟩ := eat_emit hdistinct hplain hmirrors he hdue cells
      (rest.flatMap fun e => e.1.emit cells)
    have hreaders := receiver.readers_eat (e.1.emit cells ++ rest.flatMap fun e => e.1.emit cells)
    rw [List.flatMap_cons, List.length_append] at hsteps
    have hne : e.1.emit cells ++ (rest.flatMap fun e => e.1.emit cells) ≠ [] := by
      apply List.length_pos_iff.mp
      rw [List.length_append]
      omega
    obtain ⟨steps, rfl⟩ : ∃ fewer, steps = fewer + 1 := ⟨steps - 1, by omega⟩
    generalize hq : receiver.eat (e.1.emit cells ++ rest.flatMap fun e => e.1.emit cells) =
      result at hok hwrites hreaders
    obtain ⟨q, outcome⟩ := result
    subst hok
    have hothers := @ih q (hdistinct.congr hreaders.symm) (hmirrors.congr rfl hreaders.symm)
      (found.replay (q.writes e.2)) steps hrest (by omega)
    rw [List.flatMap_cons]
    simp only [receive, if_neg hne, hq, List.drop_left' hlength, deliver_eq_replay]
    rw [hothers, hwrites]
    simp only [leavesAt_congr hreaders, List.map_cons, List.flatMap_cons, Cells.replay_append]

/-- What is emitted on a turn is emitted by the due envelopes. -/
theorem emit_eq (p : Protocol) (cells : Cells) :
    p.emit cells = p.due.flatMap fun e => e.1.emit cells := by
  have hdue (envelopes : List Envelope) (place : Nat) :
      (envelopes.flatMap fun e => e.emit cells) =
        ((envelopes.zipIdx place).filter fun e => e.1.isDue).flatMap fun e => e.1.emit cells := by
    induction envelopes generalizing place with
    | nil => rfl
    | cons e rest ih =>
      rw [List.zipIdx_cons, List.filter_cons, List.flatMap_cons, ih (place + 1)]
      cases h : e.isDue with
      | true => rw [if_pos rfl, List.flatMap_cons]
      | false =>
        rw [Envelope.emit_of_not_due h, List.nil_append, if_neg Bool.false_ne_true]
  exact hdue p.envelopes 0

/-- Due envelopes are those of the protocol, each at its place. -/
theorem mem_due {p : Protocol} {e : Envelope × Nat} (h : e ∈ p.due) :
    p.envelopes[e.2]? = some e.1 ∧ e.1.isDue = true := by
  obtain ⟨hmem, hdue⟩ := List.mem_filter.mp h
  exact ⟨List.mem_zipIdx_iff_getElem?.mp hmem, hdue⟩

/-- A receiver takes in what a sender emits on a turn as exactly the due envelopes, and
assigns to cells what arrives with them. -/
theorem receive_emit (hdistinct : receiver.Distinct) (hplain : sender.Plain)
    (hmirrors : sender.Mirrors receiver) (cells found : Cells) :
    receiver.receive (sender.emit cells).length found (sender.emit cells) =
      ⟨sender.due.map fun e => ⟨e.2, e.1.size⟩, none, [],
        found.replay (receiver.relays sender cells)⟩ := by
  rw [emit_eq]
  exact receive_emits hdistinct hplain hmirrors cells found (fun e he => mem_due he)
    (Nat.le_refl _)

end Protocol

end DataLink
