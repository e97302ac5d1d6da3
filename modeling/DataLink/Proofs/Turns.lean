import DataLink.Link.Node
import DataLink.Proofs.Account
import DataLink.Proofs.Arrivals
import DataLink.Proofs.Frames

/-!
# Sending and receiving in one cycle

A transmitter to which nothing arrives either sends nothing in a cycle or what its protocol
emits. A receiver whose buffer holds frames takes all of them in its next cycle. Silence may let
either of them report failsafe, but the transmitter writes no cells, and the receiver has not
been silent if it took a frame.
-/

namespace DataLink

namespace LinkEvent

/-- Whether the event tells of output. -/
def isSent : LinkEvent → Bool
  | .sent _ => true
  | _ => false

/-- The bytes of which an event tells that they were sent. -/
def sentBytes : LinkEvent → Nat
  | .sent bytes => bytes
  | _ => 0

variable {before sent : List LinkEvent}

/-- Whether there was output is not up to other events. -/
theorem any_isSent_append (h : ∀ e ∈ before, e.isSent = false) :
    (before ++ sent).any isSent = sent.any isSent := by
  have hnone : before.any isSent = false := by
    rw [List.any_eq_false]
    intro e he
    rw [h e he]
    exact Bool.false_ne_true
  rw [List.any_append, hnone, Bool.false_or]

/-- Events that do not tell of output add no bytes to what was sent. -/
theorem sum_sentBytes_append (h : ∀ e ∈ before, e.isSent = false) :
    ((before ++ sent).map sentBytes).sum = (sent.map sentBytes).sum := by
  have hnone : (before.map sentBytes).sum = 0 := by
    rw [List.sum_eq_zero_iff_forall_eq_nat, List.forall_mem_map]
    intro e he
    have hsent := h e he
    cases e with
    | sent bytes => cases hsent
    | _ => rfl
  rw [List.map_append, List.sum_append, hnone, Nat.zero_add]

end LinkEvent

/-- A sink that collects everything takes an output as a whole. -/
theorem Sink.handOver_bytes (kept blob : Bytes) : Sink.handOver kept blob = kept ++ blob := by
  unfold handOver
  by_cases hblob : blob = []
  · rw [if_pos hblob, hblob, List.append_nil]
  · obtain ⟨b, rest, rfl⟩ := List.exists_cons_of_ne_nil hblob
    have hleft : (b :: rest).drop (rest.length + 1) = [] := List.drop_length
    have hdone (steps : Nat) (sink : Bytes) :
        writeSteps steps sink ([] : Bytes) = (sink, true) := by
      cases steps <;> rfl
    rw [if_neg hblob]
    simp only [List.length_cons, writeSteps, if_neg hblob, Sink.write, hleft, hdone, Sink.flush, id]

/-! ### The transmitter -/

namespace Link

/-- Nothing arrives at the link, nothing disturbs its output, and it writes no cells. -/
structure Deaf (link : Link) : Prop where
  input : link.input = []
  noise : link.outputNoise = none
  unwritten : link.protocol.clearings = []

/-- What a cycle sends, and the protocol after it. -/
inductive Turn (p : Protocol) (cells : Cells) :
    List LinkEvent → Option Bytes → Protocol → Prop where
  | idle : Turn p cells [] none p
  | sends : Turn p cells [.sent (p.emit cells).length] (some (p.emit cells)) p.advance

variable {link link' : Link} {cells : Cells} {now : Duration} {sent : List LinkEvent}
  {output : Option Bytes}

/-- Without interference output is a turn of the protocol, or none is taken. -/
theorem turn_of_sendOutput (h : link.sendOutput cells now = some (link', sent, output))
    (hnoise : link.outputNoise = none) :
    Turn link.protocol cells sent output link'.protocol ∧ link'.outputNoise = none := by
  simp only [sendOutput, disturbOutput, hnoise] at h
  split at h
  · split at h
    · cases h
      exact ⟨.idle, hnoise⟩
    · obtain ⟨next, -, hnext⟩ := Option.map_eq_some_iff.mp h
      cases hnext
      exact ⟨.sends, rfl⟩
  · cases h
    exact ⟨.idle, hnoise⟩

/-- A cycle of a transmitter keeps its cells, even on failsafe. -/
theorem Deaf.process (h : link.Deaf) {r : CycleResult} (hr : link.process cells now = some r) :
    r.link.Deaf ∧ r.cells = cells ∧ ∃ sent,
      Turn link.protocol cells sent r.output r.link.protocol ∧
      r.events.any LinkEvent.isSent = sent.any LinkEvent.isSent ∧
      (r.events.map LinkEvent.sentBytes).sum = (sent.map LinkEvent.sentBytes).sum := by
  have hchewed : link.chewed = (link.protocol, []) := by
    rw [chewed, h.input]
    rfl
  have hbites : link.bites = [] := congrArg Prod.snd hchewed
  have hprotocol : (link.intake now).link.protocol = link.protocol := congrArg Prod.fst hchewed
  have hwrites : (link.intake now).writes = [] := by
    simp only [intake, hbites, hchewed, h.unwritten, List.flatMap_nil, List.nil_append, ite_self]
  obtain ⟨sent, hsend, hcells, hevents, -⟩ := process_eq_some hr
  obtain ⟨hlink, hreaders, -⟩ := sendOutput_eq_some hsend
  obtain ⟨hturn, hnoise⟩ := turn_of_sendOutput hsend h.noise
  rw [hwrites, Cells.replay_nil] at hcells hturn
  have hbefore : ∀ e ∈ (link.intake now).events, e.isSent = false := by
    intro e he
    rcases mem_intake.mp he with ⟨-, rfl⟩ | ⟨-, rfl⟩ | ⟨-, rfl⟩ <;> rfl
  refine ⟨⟨?_, hnoise, ?_⟩, hcells, sent, hprotocol ▸ hturn, ?_, ?_⟩
  · have hinput : (link.intake now).link.input = [] := by
      simp only [intake, eaten, afterBites, h.input, List.drop_nil, ite_self]
    exact (congrArg Link.input hlink).trans hinput
  · rw [Protocol.clearings_congr hreaders]
    exact hprotocol ▸ h.unwritten
  · rw [hevents, LinkEvent.any_isSent_append hbefore]
  · rw [hevents, LinkEvent.sum_sentBytes_append hbefore]

end Link

/-! ### The receiver -/

/-- Biting off frames leaves no garbage behind. -/
theorem Frame.garbageSince_bites (receiver : Protocol) (frames : List Frame) (now : Duration) :
    Bite.garbageSince now none (frames.map fun f => f.bite receiver) = none := by
  induction frames with
  | nil => rfl
  | cons f rest ih =>
    rw [List.map_cons, Frame.bite, Bite.garbageSince]
    exact ih

namespace Site

variable {s t : Site} {c : CycleLog} {frames : List Frame}

/-- A receiver takes frames. -/
structure Takes (s : Site) (frames : List Frame) (t : Site) : Prop where
  input : t.link.input = []
  garbage : t.link.garbageSince = none
  noise : t.link.inputNoise = s.link.inputNoise
  readers : t.link.protocol.readers = s.link.protocol.readers
  kinds : ∀ name, t.cells.kind? name = s.cells.kind? name
  errorBytes : t.link.stats.errorBytes = s.link.stats.errorBytes
  reacquires : t.link.stats.reacquires = s.link.stats.reacquires
  validBytes : t.link.stats.validBytes = s.link.stats.validBytes + (Frame.stream frames).length
  validEnvelopes : t.link.stats.validEnvelopes = s.link.stats.validEnvelopes + frames.length
  /-- Silence has cleared no cells if there were frames at all. -/
  cells : frames ≠ [] →
    t.cells = s.cells.replay (frames.flatMap fun f => f.relays s.link.protocol)

/-- A cycle eats the frames that are buffered. -/
theorem Cycles.eats_frames (h : s.Cycles c t) (hdistinct : s.link.protocol.Distinct)
    (hread : ∀ f ∈ frames, f.ReadBy s.link.protocol)
    (hinput : s.link.input = Frame.stream frames) :
    c.bites = (frames.map fun f => f.bite s.link.protocol) ∧
      s.link.input.drop (Bite.total c.bites) = [] := by
  obtain ⟨heats, hstop⟩ := h.eats
  rw [hinput] at heats hstop ⊢
  exact heats.unique hstop (Frame.eats hdistinct hread) (Protocol.bite?_nil _)

/-- A cycle of a receiver takes the frames that are buffered. -/
theorem Cycles.takes (h : s.Cycles c t) (hdistinct : s.link.protocol.Distinct)
    (hread : ∀ f ∈ frames, f.ReadBy s.link.protocol)
    (hinput : s.link.input = Frame.stream frames) (hgarbage : s.link.garbageSince = none) :
    s.Takes frames t := by
  obtain ⟨hbites, hrest⟩ := h.eats_frames hdistinct hread hinput
  have hbites' : s.link.bites = frames.map fun f => f.bite s.link.protocol := h.bites ▸ hbites
  -- Frames leave no garbage behind, so nothing is dropped even if a timer for it is set.
  have hsince : (s.link.eaten c.now).garbageSince = none := by
    simp only [Link.eaten, Link.afterBites, hgarbage, hbites', Frame.garbageSince_bites]
  have hkeeps : s.link.reacquires c.now = false := Link.reacquires_of_no_garbage hsince
  have hstats := congrArg Link.stats h.link
  simp only [Link.intake, Link.eaten, Link.afterBites, hkeeps, hbites', Frame.accepted_bites,
    Frame.drops_bites, Frame.acceptedBytes_bites hread, List.length_map, Bool.toNat_false,
    Nat.add_zero] at hstats
  constructor
  · rw [h.input_eq, hkeeps, hrest, ite_self]
  · have hgarbage' := congrArg Link.garbageSince h.link
    simp only [Link.intake, hkeeps, hsince, ite_self] at hgarbage'
    exact hgarbage'
  · have hnoise := congrArg Link.inputNoise h.link
    exact hnoise
  · exact h.readers
  · intro name
    rw [h.cells, Cells.kind?_replay]
  · rw [hstats]
  · rw [hstats]
  · rw [hstats]
  · rw [hstats]
  · intro hne
    have hfails : s.link.fails c.now = false := by
      apply Link.fails_of_accepted
      rw [hbites', Frame.accepted_bites]
      exact List.map_eq_nil_iff.not.mpr hne
    rw [h.cells, h.writes, Link.intake, hfails, hbites', Frame.writes_bites,
      if_neg Bool.false_ne_true, List.append_nil]

end Site

end DataLink
