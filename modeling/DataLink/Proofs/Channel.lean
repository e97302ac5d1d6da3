import DataLink.Command.Run
import DataLink.Proofs.Bindings
import DataLink.Proofs.Turns

/-!
# A clean channel

A simulation joins a transmitter and a receiver of one layout. If nothing disturbs the channel
between them, the receiver takes on every tick exactly what the transmitter sends on it. This
holds for any number of ticks, whatever the two timers for silence do.
-/

namespace DataLink

/-! ### What a tick sends -/

namespace Simulation

/-- The transmitter's events on the coming tick. -/
def transmitted (s : Simulation) : List LinkEvent :=
  match s.transmitter.process s.cycle.time with
  | some (_, events) => events
  | none => []

/-- The envelopes that are sent on the coming tick, with their places. If there is output, they
are the due ones. -/
def emitted (s : Simulation) : List (Envelope × Nat) :=
  if s.transmitted.any LinkEvent.isSent then s.transmitter.link.protocol.due else []

/-- The envelopes that are sent on the coming tick, for the transmitter's cells. -/
def frames (s : Simulation) : List Frame :=
  if s.transmitted.any LinkEvent.isSent then
    s.transmitter.link.protocol.frames s.transmitter.cells
  else []

/-- The leaves that are sent on the coming tick, in wire order. -/
def carried (s : Simulation) : List Leaf := s.emitted.flatMap fun e => e.1.leaves

/-- The states in which the ticks of a run begin. -/
def begun (length : Duration) : Nat → Simulation → List Simulation
  | 0, _ => []
  | ticks + 1, s =>
    match s.tick? length with
    | some t => s :: begun length ticks t
    | none => [s]

/-- There are as many frames as envelopes that are emitted. -/
theorem length_frames (s : Simulation) : s.frames.length = s.emitted.length := by
  unfold frames emitted
  split
  · exact Protocol.length_frames _ _
  · rfl

end Simulation

/-! ### Two ends that are joined -/

namespace Layout.Ends

variable {tx rx : Layout} {sender receiver : Protocol} {e : Envelope × Nat}

/-- The leaves of a due envelope have counterparts at the receiver. -/
theorem leaves (h : tx.Ends rx) (hsender : sender.readers = tx.protocol.readers)
    (hreceiver : receiver.readers = rx.protocol.readers) (he : e ∈ sender.due) :
    List.Forall₂ Leaf.Alike e.1.leaves (receiver.leavesAt e.2) := by
  have hleaves : sender.leavesAt e.2 = e.1.leaves := by
    rw [Protocol.leavesAt, (Protocol.mem_due he).1]
  rw [← hleaves, Protocol.leavesAt_congr hsender, Protocol.leavesAt_congr hreceiver]
  exact h.alike e.2

/-- The cells of these leaves are of their kinds. -/
theorem kind (h : tx.Ends rx) (hsender : sender.readers = tx.protocol.readers)
    (he : e ∈ sender.due) {leaf : Leaf} (hleaf : leaf ∈ e.1.leaves) :
    rx.cells.kind? leaf.binding.cell = some leaf.kind := by
  have halike := h.leaves hsender rfl he
  obtain ⟨i, hi, rfl⟩ := List.mem_iff_getElem.mp hleaf
  have hi' : i < (rx.protocol.leavesAt e.2).length := halike.length_eq ▸ hi
  have hat : e.1.leaves[i].Alike (rx.protocol.leavesAt e.2)[i] := halike.get hi hi'
  obtain ⟨c, hc, hkind⟩ :=
    (Protocol.bound_of_mirrors h.mirrors.envelopes (List.getElem_mem hi')).cell
  rw [Cells.kind?, ← hat.cell, hc, Option.map_some, hkind, hat.kind]

/-- The receiver assigns what the sender's own leaves tell. -/
theorem relays (h : tx.Ends rx) (hsender : sender.readers = tx.protocol.readers)
    (hreceiver : receiver.readers = rx.protocol.readers) (cells : Cells) :
    receiver.relays sender cells =
      (sender.due.flatMap fun e => e.1.leaves).flatMap fun leaf => leaf.relays cells := by
  rw [Protocol.relays, List.flatMap_assoc]
  refine List.flatMap_congr fun e he => ?_
  exact Leaf.relays_of_alike (h.leaves hsender hreceiver he) cells

end Layout.Ends

namespace Simulation

/-- The two ends of a layout are joined by a clean channel, with nothing on the way. -/
structure Joined (tx rx : Layout) (s : Simulation) : Prop where
  deaf : s.transmitter.link.Deaf
  sink : s.transmitter.sink = []
  sender : tx.protocol.Reaches s.transmitter.link.protocol
  receiver : s.receiver.link.protocol.readers = rx.protocol.readers
  kinds : ∀ name, s.receiver.cells.kind? name = rx.cells.kind? name
  buffer : s.receiver.link.input = []
  noise : s.receiver.link.inputNoise = none
  garbage : s.receiver.link.garbageSince = none

/-- What ticks that begin in some states bring to the receiver from one state to another. -/
structure Delivers (begun : List Simulation) (s t : Simulation) : Prop where
  errorBytes : t.receiver.link.stats.errorBytes = s.receiver.link.stats.errorBytes
  reacquires : t.receiver.link.stats.reacquires = s.receiver.link.stats.reacquires
  validBytes : t.receiver.link.stats.validBytes = s.receiver.link.stats.validBytes +
    ((begun.flatMap transmitted).map LinkEvent.sentBytes).sum
  validEnvelopes : t.receiver.link.stats.validEnvelopes =
    s.receiver.link.stats.validEnvelopes + (begun.flatMap emitted).length
  sentBytes : t.counts.sentBytes =
    s.counts.sentBytes + ((begun.flatMap transmitted).map LinkEvent.sentBytes).sum
  /-- The transmitter's cells stay. -/
  cells : t.transmitter.cells = s.transmitter.cells

/-- Nothing is delivered in no time. -/
theorem Delivers.refl (s : Simulation) : Delivers [] s s := ⟨rfl, rfl, rfl, rfl, rfl, rfl⟩

/-- What is delivered in two stretches of ticks is delivered in both together. -/
theorem Delivers.trans {s t u : Simulation} {begun later : List Simulation}
    (h : Delivers begun s t) (h' : Delivers later t u) : Delivers (begun ++ later) s u := by
  constructor
  · rw [h'.errorBytes, h.errorBytes]
  · rw [h'.reacquires, h.reacquires]
  · rw [h'.validBytes, h.validBytes, List.flatMap_append, List.map_append, List.sum_append,
      Nat.add_assoc]
  · rw [h'.validEnvelopes, h.validEnvelopes, List.flatMap_append, List.length_append,
      Nat.add_assoc]
  · rw [h'.sentBytes, h.sentBytes, List.flatMap_append, List.map_append, List.sum_append,
      Nat.add_assoc]
  · rw [h'.cells, h.cells]

/-- The transmitter after its cycle of a tick. -/
structure Transmits (tx : Layout) (s : Simulation) (node : Node Bytes) (events : List LinkEvent) :
    Prop where
  deaf : node.link.Deaf
  cells : node.cells = s.transmitter.cells
  sender : tx.protocol.Reaches node.link.protocol
  sink : node.sink = Frame.stream s.frames
  sentBytes : (events.map LinkEvent.sentBytes).sum = node.sink.length

variable {tx rx : Layout} {s t : Simulation} {length : Duration}

/-- In its cycle the transmitter hands over the frames of the tick. -/
theorem Joined.transmits (h : s.Joined tx rx) {node : Node Bytes} {events : List LinkEvent}
    (hprocess : s.transmitter.process s.cycle.time = some (node, events)) :
    s.Transmits tx node events := by
  have htransmitted : s.transmitted = events := by
    rw [transmitted, hprocess]
  obtain ⟨r, hr, hnode⟩ := Option.map_eq_some_iff.mp hprocess
  obtain ⟨hdeaf, hcells, sent, hturn, hany, hbytes⟩ := h.deaf.process hr
  cases hnode
  rw [← htransmitted] at hany
  generalize hafter : r.link.protocol = after at hturn
  generalize houtput : r.output = output at hturn
  cases hturn with
  | idle =>
    have hframes : s.frames = [] := by
      rw [frames, hany]
      rfl
    have hsink := h.sink
    refine ⟨hdeaf, hcells, ?_, ?_, ?_⟩
    · rw [hafter]
      exact h.sender
    · rw [hframes]
      exact hsink
    · dsimp only
      rw [hbytes, hsink]
      rfl
  | sends =>
    have hframes : s.frames = s.transmitter.link.protocol.frames s.transmitter.cells := by
      rw [frames, hany]
      rfl
    refine ⟨hdeaf, hcells, ?_, ?_, ?_⟩
    · rw [hafter]
      exact h.sender.advance
    · dsimp only
      rw [hframes, h.sink, Sink.handOver_bytes, Protocol.stream_frames]
      rfl
    · dsimp only
      rw [hbytes, h.sink, Sink.handOver_bytes]
      rfl

/-- The receiver reads the frames of a tick. -/
theorem Joined.readBy (h : s.Joined tx rx) (hends : tx.Ends rx) :
    ∀ f ∈ s.frames, f.ReadBy s.receiver.link.protocol := by
  have hmirrors := Protocol.mirrors_of_forall₂ hends.mirrors.envelopes
  intro f hf
  unfold frames at hf
  split at hf
  · have hsender := Protocol.sender_of_mem_frames hf
    refine ⟨?_, ?_⟩
    · rw [hsender]
      exact h.sender.plain (Protocol.plain_of_mirrors hends.mirrors.envelopes)
    · rw [hsender]
      exact hmirrors.congr h.sender.readers.symm h.receiver.symm
  · cases hf

/-- What arrives with the frames of a tick is what their leaves tell. -/
theorem Joined.relays (h : s.Joined tx rx) (hends : tx.Ends rx) :
    (s.frames.flatMap fun f => f.relays s.receiver.link.protocol) =
      s.carried.flatMap fun leaf => leaf.relays s.transmitter.cells := by
  unfold frames carried emitted
  split
  · rw [Protocol.relays_frames]
    exact hends.relays h.sender.readers h.receiver s.transmitter.cells
  · rfl

/-- The receiver has cells for all leaves of a tick. -/
theorem Joined.kind (h : s.Joined tx rx) (hends : tx.Ends rx) :
    ∀ leaf ∈ s.carried, s.receiver.cells.kind? leaf.binding.cell = some leaf.kind := by
  intro leaf hleaf
  obtain ⟨e, he, hleaf⟩ := List.mem_flatMap.mp hleaf
  unfold emitted at he
  split at he
  · rw [h.kinds]
    exact hends.kind h.sender.readers he hleaf
  · cases he

/-- Events of the receiver send nothing. -/
theorem sentBytes_addReceived (counts : EventCounts) (events : List LinkEvent) :
    (events.foldl EventCounts.addReceived counts).sentBytes = counts.sentBytes := by
  induction events generalizing counts with
  | nil => rfl
  | cons e rest ih =>
    rw [List.foldl_cons, ih]
    cases e <;> rfl

/-- Every event of the transmitter adds what it has sent. -/
theorem sentBytes_addTransmitted (counts : EventCounts) (events : List LinkEvent) :
    (events.foldl EventCounts.addTransmitted counts).sentBytes =
      counts.sentBytes + (events.map LinkEvent.sentBytes).sum := by
  induction events generalizing counts with
  | nil => rfl
  | cons e rest ih =>
    rw [List.foldl_cons, ih, List.map_cons, List.sum_cons]
    cases e with
    | sent bytes => exact Nat.add_assoc _ _ _
    | _ => exact congrArg _ (Nat.zero_add _).symm

/-- The cycles that a tick is made of. -/
theorem tick_eq_some (h : s.tick? length = some t) :
    ∃ node r, s.transmitter.process s.cycle.time = some (node, s.transmitted) ∧
      (s.receiver.link.feed node.sink).process s.receiver.cells s.cycle.time = some r ∧
      t.transmitter = { node with sink := [] } ∧ t.receiver = ⟨r.link, r.cells, ()⟩ ∧
      t.counts.sentBytes = s.counts.sentBytes + (s.transmitted.map LinkEvent.sentBytes).sum := by
  unfold tick? at h
  split at h
  · cases h
  · next node events hprocess =>
    have htransmitted : s.transmitted = events := by
      rw [transmitted, hprocess]
    split at h
    · cases h
    · next receiver received hreceive =>
      obtain ⟨cycle, -, rfl⟩ := Option.map_eq_some_iff.mp h
      obtain ⟨r, hr, heq⟩ := Option.map_eq_some_iff.mp hreceive
      obtain ⟨rfl, rfl⟩ := Prod.mk.inj heq
      refine ⟨node, r, htransmitted ▸ hprocess, hr, rfl, rfl, ?_⟩
      rw [htransmitted, sentBytes_addReceived, sentBytes_addTransmitted]

/-- On a tick the receiver takes the frames that the transmitter sends. -/
theorem Joined.takes (h : s.Joined tx rx) (hends : tx.Ends rx) (htick : s.tick? length = some t) :
    ∃ node, s.Transmits tx node s.transmitted ∧ t.transmitter = { node with sink := [] } ∧
      Site.Takes ⟨{ s.receiver.link with input := Frame.stream s.frames }, s.receiver.cells⟩
        s.frames ⟨t.receiver.link, t.receiver.cells⟩ ∧
      t.counts.sentBytes = s.counts.sentBytes + (s.transmitted.map LinkEvent.sentBytes).sum := by
  obtain ⟨node, r, hprocess, hr, htransmitter, hreceiver, hcount⟩ := tick_eq_some htick
  have htransmits := h.transmits hprocess
  -- What the transmitter has handed over is then all that the receiver has buffered.
  have hfeed : s.receiver.link.feed node.sink =
      { s.receiver.link with input := Frame.stream s.frames } := by
    simp only [Link.feed, h.noise, h.buffer, List.nil_append, htransmits.sink]
  have hdistinct : s.receiver.link.protocol.Distinct :=
    hends.mirrors.distinct.congr h.receiver.symm
  rw [hfeed] at hr
  refine ⟨node, htransmits, htransmitter, ?_, hcount⟩
  rw [hreceiver]
  exact (Site.Cycles.of_process hr).takes hdistinct (h.readBy hends) rfl h.garbage

/-- Ticks over a clean channel keep the ends joined. -/
theorem Joined.tick (h : s.Joined tx rx) (hends : tx.Ends rx) (htick : s.tick? length = some t) :
    t.Joined tx rx := by
  obtain ⟨node, htransmits, htransmitter, htakes, -⟩ := h.takes hends htick
  constructor
  · rw [htransmitter]
    exact htransmits.deaf
  · rw [htransmitter]
  · rw [htransmitter]
    exact htransmits.sender
  · exact htakes.readers.trans h.receiver
  · intro name
    exact (htakes.kinds name).trans (h.kinds name)
  · exact htakes.input
  · exact htakes.noise.trans h.noise
  · exact htakes.garbage

/-- A tick brings to the receiver what the transmitter sends. -/
theorem Joined.delivers (h : s.Joined tx rx) (hends : tx.Ends rx)
    (htick : s.tick? length = some t) : Delivers [s] s t := by
  obtain ⟨node, htransmits, htransmitter, htakes, hcount⟩ := h.takes hends htick
  have hsent : (s.transmitted.map LinkEvent.sentBytes).sum = (Frame.stream s.frames).length := by
    rw [htransmits.sentBytes, htransmits.sink]
  constructor
  · exact htakes.errorBytes
  · exact htakes.reacquires
  · rw [List.flatMap_singleton, hsent]
    exact htakes.validBytes
  · rw [List.flatMap_singleton, ← length_frames]
    exact htakes.validEnvelopes
  · rw [List.flatMap_singleton, hcount]
  · rw [htransmitter]
    exact htransmits.cells

/-- After a tick on which envelopes are sent, the receiver's cells hold what arrived. -/
theorem Joined.settled (h : s.Joined tx rx) (hends : tx.Ends rx)
    (htick : s.tick? length = some t) (hne : s.emitted ≠ []) (name : String) :
    t.receiver.cells.value? name =
      Leaf.settled s.carried s.transmitter.cells s.receiver.cells name := by
  obtain ⟨node, -, -, htakes, -⟩ := h.takes hends htick
  have hframes : s.frames ≠ [] := by
    rw [← List.length_pos_iff, length_frames, List.length_pos_iff]
    exact hne
  have hcells : t.receiver.cells = s.receiver.cells.replay
      (s.frames.flatMap fun f => f.relays s.receiver.link.protocol) := htakes.cells hframes
  rw [hcells, h.relays hends]
  exact Leaf.value?_replay_relays (h.kind hends) name

/-- Any number of ticks bring to the receiver what the transmitter sends. -/
theorem Joined.run {ticks : Nat} (h : s.Joined tx rx) (hends : tx.Ends rx)
    (hrun : s.run? length ticks = some t) :
    t.Joined tx rx ∧ Delivers (s.begun length ticks) s t := by
  -- The first tick is split off, so the state that the others begin in is joined as well.
  induction ticks generalizing s with
  | zero =>
    cases hrun
    exact ⟨h, .refl _⟩
  | succ ticks ih =>
    unfold run? at hrun
    split at hrun
    · next u htick =>
      obtain ⟨hjoined, hothers⟩ := ih (h.tick hends htick) hrun
      have hbegun : s.begun length (ticks + 1) = [s] ++ u.begun length ticks := by
        simp only [begun, htick, List.singleton_append]
      rw [hbegun]
      exact ⟨hjoined, (h.delivers hends htick).trans hothers⟩
    · cases hrun

/-! ### Setting up -/

/-- Two links of two ends, at first, are joined. -/
theorem joined_of_new {entropies : Entropies} (h : Simulation.new tx rx entropies = .ok s)
    (hends : tx.Ends rx) (houtput : tx.settings.outputInterference.le .zero = true)
    (hinput : rx.settings.inputInterference.le .zero = true) :
    s.Joined tx rx ∧ s.receiver.link.stats = ⟨0, 0, 0, 0, 0⟩ ∧ s.counts = .zero := by
  unfold Simulation.new at h
  split at h
  · cases h
  · cases h
  · next transmitter receiver htransmitter hreceiver =>
    cases h
    have hfresh := Link.Fresh.of_new (of_mapError_ok hreceiver)
    obtain ⟨_, -, rfl⟩ := Packet.map_ok_iff.mp (of_mapError_ok htransmitter)
    obtain ⟨_, -, rfl⟩ := Packet.map_ok_iff.mp (of_mapError_ok hreceiver)
    refine ⟨?_, rfl, rfl⟩
    constructor
    · exact ⟨rfl, Link.noise?_of_le_zero houtput _ _, hends.unwritten⟩
    · rfl
    · exact .start
    · rfl
    · intro name
      rfl
    · rfl
    · exact Link.noise?_of_le_zero hinput _ _
    · rfl

/-- A simulation that is set up joins two ends of its layout. -/
theorem joined_of_setup {a : Command.SimulateArguments} {file : Layout.FileState}
    {entropies : Entropies} (h : Command.setup a file entropies = .ok s)
    (hquiet : a.interference.le .zero = true) :
    ∃ tx rx, tx.Ends rx ∧ s.Joined tx rx ∧ s.receiver.link.stats = ⟨0, 0, 0, 0, 0⟩ ∧
      s.counts = .zero := by
  unfold Command.setup at h
  by_cases hzero : a.ticks = 0 ∨ a.tickMillis = 0
  · simp only [if_pos hzero] at h
    cases h
  by_cases hprobability : (!a.interference.isProbability) = true
  · simp only [if_neg hzero, if_pos hprobability] at h
    cases h
  simp only [if_neg hzero, if_neg hprobability] at h
  obtain ⟨tx, htx, h⟩ := of_bind_ok h
  obtain ⟨cells, -, h⟩ := of_bind_ok h
  obtain ⟨rx, hrx, h⟩ := of_bind_ok h
  obtain ⟨d, hbuild, hbuild'⟩ :=
    Layout.build_of_load (of_mapError_ok htx) (of_mapError_ok hrx) rfl
  -- Neither the assigned cells nor the settings of the simulation matter to the two ends.
  obtain ⟨hmirrors, halike, hunwritten⟩ := Layout.ends_of_build hbuild hbuild' rfl rfl
  have hsilent : Binary64.zero.le .zero = true := by decide
  refine ⟨{ tx with
      cells
      settings := transmitterSettings tx.settings a.tickMillis a.interference a.seed },
    { rx with settings := receiverSettings rx.settings }, ?_⟩
  have hends : Layout.Ends
      { tx with
        cells
        settings := transmitterSettings tx.settings a.tickMillis a.interference a.seed }
      { rx with settings := receiverSettings rx.settings } :=
    ⟨⟨hmirrors.envelopes, hmirrors.distinct⟩, halike, hunwritten⟩
  exact ⟨hends, joined_of_new (of_mapError_ok h) hends hquiet hsilent⟩

/-- A clean channel loses nothing. However many ticks pass, the receiver has taken exactly what
the transmitter has sent, byte for byte and envelope for envelope, and it has never dropped
anything. The transmitter's cells stay as they were set up. After a tick on which envelopes are
sent, every cell of the receiver holds what has arrived with the last leaf that assigns it, or
what it held before if there is none. -/
theorem clean_channel_loses_nothing {a : Command.SimulateArguments} {file : Layout.FileState}
    {entropies : Entropies} {ticks : Nat} (hsetup : Command.setup a file entropies = .ok s)
    (hquiet : a.interference.le .zero = true)
    (hrun : s.run? (.ofMillis a.tickMillis) ticks = some t) :
    t.receiver.link.stats.errorBytes = 0 ∧
      t.receiver.link.stats.reacquires = 0 ∧
      t.receiver.link.input = [] ∧
      t.receiver.link.stats.validBytes =
        (((s.begun (.ofMillis a.tickMillis) ticks).flatMap transmitted).map
          LinkEvent.sentBytes).sum ∧
      t.receiver.link.stats.validBytes = t.counts.sentBytes ∧
      t.receiver.link.stats.validEnvelopes =
        ((s.begun (.ofMillis a.tickMillis) ticks).flatMap emitted).length ∧
      t.transmitter.cells = s.transmitter.cells ∧
      ∀ u, t.tick? (.ofMillis a.tickMillis) = some u → t.emitted ≠ [] → ∀ name,
        u.receiver.cells.value? name =
          Leaf.settled t.carried t.transmitter.cells t.receiver.cells name := by
  obtain ⟨tx, rx, hends, hjoined, hstats, hcounts⟩ := joined_of_setup hsetup hquiet
  obtain ⟨hjoined', hdelivers⟩ := hjoined.run hends hrun
  obtain ⟨herror, hreacquires, hbytes, henvelopes, hsent, hcells⟩ := hdelivers
  rw [hstats] at herror hreacquires hbytes henvelopes
  rw [hcounts] at hsent
  rw [Nat.zero_add] at hbytes henvelopes
  have hsent' := hsent.trans (Nat.zero_add _)
  refine ⟨herror, hreacquires, hjoined'.buffer, hbytes, hbytes.trans hsent'.symm, henvelopes,
    hcells, ?_⟩
  intro u htick hne name
  exact hjoined'.settled hends htick hne name

end Simulation

namespace Command

/-- What a task finds in a file that holds a text. -/
theorem loadLayout_text {options : Layout.Options} {path text : String}
    (h : text.utf8ByteSize ≤ options.maxFileBytes) :
    loadLayout options path (.file text.utf8ByteSize text.toUTF8) =
      (Layout.ofText options text).mapError (.ofFault ("layout " ++ path)) := by
  rw [loadLayout, Layout.load_text h]

end Command

/-! ### A small system

A light and what is known about it. It serves for an example.
-/

namespace Beacon

/-- A layout of four cells, line by line. The height is sent in half precision and the level in one
byte. The range is sent twice. -/
def lines : List String :=
  ["\x7b\"cells\":\x7b\"lit\":\"bool\",\"height\":\"float\",",
    "\"level\":\"unsigned\",\"range\":\"float\"\x7d,",
    "\"envelopes\":[\x7b\"magic\":\"ab\",\"packets\":[",
    "\x7b\"bitfield\":[\x7b\"cell\":\"lit\"\x7d]\x7d,",
    "\x7b\"value\":\x7b\"cell\":\"height\",\"bytes\":2,\"offset\":100\x7d\x7d,",
    "\x7b\"value\":\x7b\"cell\":\"level\",\"bytes\":1,\"value_if_nil\":7\x7d\x7d,",
    "\x7b\"value\":\x7b\"cell\":\"range\",\"bytes\":8\x7d\x7d,",
    "\x7b\"value\":\x7b\"cell\":\"range\",\"bytes\":2,\"retained\":true\x7d\x7d]\x7d]\x7d"]

/-- The layout as one text. -/
def text : String := String.join lines

/-- The layout as a file. -/
def file : Layout.FileState := .file text.utf8ByteSize text.toUTF8

/-- The characters of the text are found line by line. -/
theorem toList_text : text.toList = lines.flatMap String.toList := by
  rw [text, String.toList_join]

/-- The file is small enough to be read. -/
theorem loadLayout_file {options : Layout.Options} {path : String}
    (h : options.maxFileBytes = Layout.Options.default.maxFileBytes) :
    Command.loadLayout options path file =
      (Layout.ofText options text).mapError (.ofFault ("layout " ++ path)) := by
  have hfits : text.utf8ByteSize ≤ Layout.Options.default.maxFileBytes := by decide +kernel
  exact Command.loadLayout_text (h ▸ hfits)

/-- What the transmitter's cells are set to. The level does not fit into one byte, and the range
does not fit into half precision. -/
def assignments : List String := ["lit=on", "height=101.1", "level=300", "range=1000000"]

/-- What arrives for it: the height is rounded to `101.099609375`, and the substitute for nil stands
for the level. Nil for the range is withheld, so it is what was sent first. -/
def arrived : List (String × Value) :=
  [("lit", .bool true), ("height", .float ⟨0x4059466000000000⟩), ("level", .unsigned 7),
    ("range", .float ⟨0x412E848000000000⟩)]

/-- Three ticks of a tenth of a second. -/
def arguments : Command.SimulateArguments := ⟨"beacon.json", 3, 100, .zero, none, assignments⟩

/-- Nothing is sent on the first tick. The second one brings all four values. -/
theorem clean_channel_loses_nothing_beacon :
    ∃ s t u, Command.setup arguments file 0 = .ok s ∧ s.run? (.ofMillis 100) 1 = some t ∧
      t.tick? (.ofMillis 100) = some u ∧ t.receiver.link.stats.errorBytes = 0 ∧
      ∀ value ∈ arrived, t.receiver.cells.value? value.1 = none ∧
        u.receiver.cells.value? value.1 = some value.2 ∧
        Leaf.settled t.carried t.transmitter.cells t.receiver.cells value.1 = some value.2 := by
  have hticks : (Command.setup arguments file 0).toOption.bind (fun s =>
      (s.run? (.ofMillis 100) 1).bind fun t => (t.tick? (.ofMillis 100)).map fun u =>
        decide (t.emitted.isEmpty = false ∧ ∀ value ∈ arrived,
          t.receiver.cells.value? value.1 = none ∧
            u.receiver.cells.value? value.1 = some value.2)) = some true := by
    dsimp only [Command.setup]
    rw [loadLayout_file, loadLayout_file, Layout.ofText, Layout.ofText, Layout.Document.ofText,
      TokenReader.run, Token.ofText, toList_text]
    · decide +kernel
    all_goals rfl
  obtain ⟨s, hs, hticks⟩ := Option.bind_eq_some_iff.mp hticks
  obtain ⟨t, hrun, hticks⟩ := Option.bind_eq_some_iff.mp hticks
  obtain ⟨u, htick, hview⟩ := Option.map_eq_some_iff.mp hticks
  obtain ⟨hemitted, hvalues⟩ := of_decide_eq_true hview
  have hsetup : Command.setup arguments file 0 = .ok s := of_toOption_some hs
  obtain ⟨herror, -, -, -, -, -, -, hafter⟩ :=
    Simulation.clean_channel_loses_nothing hsetup (by decide) hrun
  have hne : t.emitted ≠ [] := by
    intro hnil
    rw [hnil] at hemitted
    cases hemitted
  refine ⟨s, t, u, hsetup, hrun, htick, herror, fun value hvalue => ?_⟩
  obtain ⟨hbefore, hlast⟩ := hvalues value hvalue
  exact ⟨hbefore, hlast, (hafter u htick hne value.1).symm.trans hlast⟩

end Beacon

end DataLink
