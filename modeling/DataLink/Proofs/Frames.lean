import DataLink.Proofs.Transmission

/-!
# Frames

A frame is an envelope that a sender emits on one turn, with the values of its cells then. A
receiver that reads what the sender writes takes frames from the front of its input as they are,
whoever sent them and whatever follows. Bytes at which no magic starts are dropped before them.
-/

namespace DataLink

/-- A due envelope of a sender, about to be emitted for its cells. -/
structure Frame where
  sender : Protocol
  cells : Cells
  place : Nat
  envelope : Envelope
  placed : sender.envelopes[place]? = some envelope
  due : envelope.isDue = true

namespace Frame

/-- The bytes that are emitted. -/
def bytes (f : Frame) : Bytes := f.envelope.emit f.cells

/-- The envelope as the receiver counts it. -/
def eaten (f : Frame) : Eaten := ⟨f.place, f.envelope.size⟩

/-- What arrives at the receiver's cells, in wire order. -/
noncomputable def relays (f : Frame) (receiver : Protocol) : List Assignment :=
  (receiver.leavesAt f.place).flatMap fun leaf => leaf.relays f.cells

/-- The bite in which the receiver takes the frame. -/
noncomputable def bite (f : Frame) (receiver : Protocol) : Bite := .accept f.eaten (f.relays receiver)

/-- The bytes of frames one behind the other. -/
def stream (frames : List Frame) : Bytes := frames.flatMap bytes

/-- The receiver reads what the frame's sender writes. -/
structure ReadBy (receiver : Protocol) (f : Frame) : Prop where
  plain : f.sender.Plain
  mirrors : f.sender.Mirrors receiver

variable {receiver : Protocol} {f : Frame} {frames : List Frame}

/-- A frame that can be read is as long as the size of its envelope says. -/
theorem ReadBy.length_bytes (h : f.ReadBy receiver) : f.bytes.length = f.envelope.size :=
  Envelope.length_emit (h.plain _ (List.mem_of_getElem? f.placed)) f.due f.cells

/-- A frame begins with a magic of the receiver. -/
theorem ReadBy.magicSize_le (h : f.ReadBy receiver) (hdistinct : receiver.Distinct) :
    receiver.magicSize ≤ f.bytes.length := by
  obtain ⟨e, he, hmirror⟩ := h.mirrors.envelope f.placed
  have hmagic : e.header.magic = f.envelope.header.magic := hmirror.magic
  have hemit : f.bytes =
      f.envelope.header.magic ++ Packet.emitAll f.cells f.envelope.packets := if_pos f.due
  rw [← hdistinct.length e (List.mem_of_getElem? he), hmagic, hemit, List.length_append]
  exact Nat.le_add_right _ _

/-- A receiver takes a frame whole, whatever follows. -/
theorem ReadBy.bite?_bytes (h : f.ReadBy receiver) (hdistinct : receiver.Distinct)
    (more : Bytes) : receiver.bite? (f.bytes ++ more) = some (f.bite receiver) := by
  have heat := Protocol.eat_emit hdistinct h.plain h.mirrors f.placed f.due f.cells more
  have hlength := h.length_bytes
  have hpos := f.envelope.size_pos
  have hne : f.bytes ++ more ≠ [] := by
    apply List.length_pos_iff.mp
    rw [List.length_append]
    omega
  exact Protocol.bite?_eq_accept_iff.mpr ⟨hne, heat⟩

/-- A receiver takes frames one after the other, until nothing is left. -/
theorem eats (hdistinct : receiver.Distinct) (h : ∀ f ∈ frames, f.ReadBy receiver) :
    receiver.Eats (stream frames) (frames.map fun f => f.bite receiver) [] := by
  induction frames with
  | nil => exact .nothing []
  | cons f rest ih =>
    obtain ⟨hfirst, hrest⟩ := List.forall_mem_cons.mp h
    have hlength : (f.bite receiver).length = f.bytes.length := hfirst.length_bytes.symm
    rw [stream, List.flatMap_cons, List.map_cons]
    apply Protocol.Eats.bite (hfirst.bite?_bytes hdistinct _)
    rw [List.drop_left' hlength.symm]
    exact ih hrest

/-! ### What the bites come to -/

/-- The frames that are bitten off are accepted as they are counted. -/
theorem accepted_bites (receiver : Protocol) (frames : List Frame) :
    Bite.accepted (frames.map fun f => f.bite receiver) = frames.map eaten := by
  induction frames with
  | nil => rfl
  | cons f rest ih => rw [List.map_cons, bite, Bite.accepted_accept, ih, List.map_cons]

/-- Biting off frames drops no byte. -/
theorem drops_bites (receiver : Protocol) (frames : List Frame) :
    Bite.drops (frames.map fun f => f.bite receiver) = 0 := by
  induction frames with
  | nil => rfl
  | cons f rest ih => rw [List.map_cons, bite, Bite.drops_accept, ih]

/-- Biting off frames assigns what arrives from each of them. -/
theorem writes_bites (receiver : Protocol) (frames : List Frame) :
    (frames.map fun f => f.bite receiver).flatMap Bite.writes =
      frames.flatMap fun f => f.relays receiver := by
  rw [List.flatMap_map]
  rfl

/-- The bytes of frames that can be read are all accepted. -/
theorem acceptedBytes_bites (h : ∀ f ∈ frames, f.ReadBy receiver) :
    Bite.acceptedBytes (frames.map fun f => f.bite receiver) = (stream frames).length := by
  rw [Bite.acceptedBytes, accepted_bites, List.map_map, stream, List.length_flatMap]
  congr 1
  apply List.map_congr_left
  intro f hf
  exact (h f hf).length_bytes.symm

end Frame

namespace Protocol

/-- The frame in which a due envelope is emitted. -/
def frameOf (sender : Protocol) (cells : Cells) (e : { e // e ∈ sender.due }) : Frame :=
  ⟨sender, cells, e.1.2, e.1.1, (mem_due e.2).1, (mem_due e.2).2⟩

/-- What a sender emits on the coming turn, frame by frame. -/
def frames (sender : Protocol) (cells : Cells) : List Frame :=
  sender.due.attach.map (sender.frameOf cells)

/-- All frames of a turn come from the sender as it is on that turn. -/
theorem sender_of_mem_frames {sender : Protocol} {cells : Cells} {f : Frame}
    (h : f ∈ sender.frames cells) : f.sender = sender := by
  obtain ⟨e, -, rfl⟩ := List.mem_map.mp h
  rfl

/-- There is a frame for each envelope that is due. -/
theorem length_frames (sender : Protocol) (cells : Cells) :
    (sender.frames cells).length = sender.due.length := by
  rw [frames, List.length_map, List.length_attach]

/-- The frames are the due envelopes in their order. -/
theorem flatMap_frames {α : Type} {sender : Protocol} {cells : Cells} {g : Frame → List α}
    {g' : Envelope × Nat → List α} (h : ∀ e, g (sender.frameOf cells e) = g' e.1) :
    (sender.frames cells).flatMap g = sender.due.flatMap g' := by
  have hg : (fun e => g (sender.frameOf cells e)) = fun e => g' e.1 := funext h
  calc
    (sender.frames cells).flatMap g
      = sender.due.attach.flatMap fun e => g' e.1 := by rw [frames, List.flatMap_map, hg]
    _ = (sender.due.attach.map Subtype.val).flatMap g' := by rw [List.flatMap_map]
    _ = sender.due.flatMap g' := by rw [List.attach_map_subtype_val]

/-- The frames of a turn are what the sender emits on it. -/
theorem stream_frames (sender : Protocol) (cells : Cells) :
    Frame.stream (sender.frames cells) = sender.emit cells := by
  rw [emit_eq]
  exact flatMap_frames fun _ => rfl

/-- What arrives from the frames of a turn is what the turn relays. -/
theorem relays_frames (sender receiver : Protocol) (cells : Cells) :
    ((sender.frames cells).flatMap fun f => f.relays receiver) = receiver.relays sender cells :=
  flatMap_frames fun _ => rfl

/-- Every byte at which no magic starts is dropped, if a magic could have started there. -/
theorem bite?_of_no_magic {p : Protocol} {input : Bytes} (hlong : p.magicSize ≤ input.length)
    (hne : input ≠ []) (hmagic : ∀ e ∈ p.envelopes, ¬ e.header.magic <+: input) :
    p.bite? input = some (.drop .unknownMagic) := by
  have hfind : p.find? (input.take p.magicSize) = none := by
    refine List.findIdx?_eq_none_iff.mpr ?_
    intro e he
    refine decide_eq_false ?_
    intro hsame
    exact hmagic e he (hsame ▸ List.take_prefix _ _)
  refine bite?_eq_drop_iff.mpr ⟨hne, ?_, fun needed available => WireFault.noConfusion⟩
  rcases p.eat_cases input with ⟨hshort, -⟩ | ⟨-, -, hout⟩ | ⟨i, e, -, hsome, -⟩
  · omega
  · rw [hout]
  · rw [hfind] at hsome
    cases hsome

/-- Garbage is dropped byte by byte, up to the first place at which a magic may start. -/
theorem eats_garbage {p : Protocol} {garbage more : Bytes} (hlong : p.magicSize ≤ more.length)
    (hmagic : ∀ i < garbage.length, ∀ e ∈ p.envelopes,
      ¬ e.header.magic <+: (garbage ++ more).drop i) :
    p.Eats (garbage ++ more) (List.replicate garbage.length (.drop .unknownMagic)) more := by
  induction garbage with
  | nil => exact .nothing more
  | cons b rest ih =>
    have hfirst : p.bite? (b :: rest ++ more) = some (.drop .unknownMagic) := by
      apply bite?_of_no_magic
      · rw [List.length_append]
        omega
      · exact List.cons_ne_nil _ _
      · exact hmagic 0 (Nat.succ_pos _)
    apply Eats.bite hfirst
    apply ih
    intro i hi
    exact hmagic (i + 1) (Nat.succ_lt_succ hi)

end Protocol

end DataLink
