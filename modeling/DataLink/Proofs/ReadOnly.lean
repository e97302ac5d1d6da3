import DataLink.Proofs.Bindings
import DataLink.Proofs.Turns

/-!
# Links that only read their cells

What a link sends depends on its cells, on how its packets are emitted, on its interference with
output, and on its output timer. Eating moves none of these, unless it writes cells. So if a link
only reads them, then input has no way to its output: leaving all input out of a run, the link
sends the same.
-/

namespace DataLink

/-! ### Eating without writing -/

namespace Protocol

variable {p q : Protocol}

/-- Whether cells are written is up to how envelopes are read. -/
theorem ReadsOnly.congr (hp : p.ReadsOnly) (h : p.readers = q.readers) : q.ReadsOnly := by
  intro f hf leaf hleaf
  have hreader : f.reader ∈ p.readers := by
    rw [h]
    exact List.mem_map_of_mem hf
  obtain ⟨e, he, heq⟩ := List.mem_map.mp hreader
  have hleaves : e.leaves = f.leaves := congrArg Reader.leaves heq
  exact hp e he leaf (hleaves ▸ hleaf)

/-- A protocol that only reads its cells assigns none. -/
theorem ReadsOnly.writes (hp : p.ReadsOnly) (place : Nat) : p.writes place = [] := by
  unfold Protocol.writes
  cases he : p.envelopes[place]? with
  | none => rfl
  | some e =>
    refine List.flatMap_eq_nil_iff.mpr fun pair hpair => ?_
    have hreads := hp e (List.mem_of_getElem? he) pair.1 (List.of_mem_zip hpair).1
    simp only [Leaf.deliveries, Binding.deliveries, Binding.writes, hreads, Bool.false_eq_true,
      if_false, ite_self]

/-- No bite of such a protocol assigns anything. -/
theorem ReadsOnly.bite? (hp : p.ReadsOnly) {input : Bytes} {b : Bite}
    (h : p.bite? input = some b) : b.writes = [] := by
  cases b with
  | drop fault => rfl
  | accept eaten writes =>
    obtain ⟨-, -, rfl⟩ := bite?_eq_accept_iff.mp h
    exact (hp.congr (readers_eat p input).symm).writes _

/-- Whatever such a protocol eats, nothing is assigned. -/
theorem ReadsOnly.eats (hp : p.ReadsOnly) {input rest : Bytes} {bites : List Bite}
    (h : p.Eats input bites rest) : bites.flatMap Bite.writes = [] := by
  induction h with
  | nothing => rfl
  | bite first _ ih => rw [List.flatMap_cons, hp.bite? first, ih, List.append_nil]

end Protocol

/-- Accepted envelopes assign no cells then, and neither does failsafe. -/
theorem Link.writes_of_readsOnly {link : Link} (h : link.protocol.ReadsOnly) (now : Duration) :
    (link.intake now).writes = [] := by
  have hbites : link.bites.flatMap Bite.writes = [] :=
    h.eats (link.protocol.eats_chew link.input.length link.input)
  have hclearings : link.chewed.1.clearings = [] :=
    (h.congr (link.protocol.readers_chew _ _).symm).clearings
  simp only [intake, hbites, hclearings, ite_self, List.append_nil]

/-! ### What output depends on -/

/-- All that the output of a link depends on, besides its cells. -/
structure Sender where
  /-- The envelopes without what is staged for them. -/
  packets : List Packet
  period : Option Duration
  noise : Option Interference
  startedAt : Option Duration
  nextOutputAt : Option Duration

namespace Protocol

/-- The envelopes without what is staged for them. -/
def packets (p : Protocol) : List Packet := p.envelopes.map Envelope.packet

/-- What is emitted depends on packets and cells, and not on what is staged. -/
theorem emit_eq_packets (p : Protocol) (cells : Cells) :
    p.emit cells = p.packets.flatMap fun packet => packet.emit cells := by
  rw [packets, List.flatMap_map]
  rfl

/-- On a turn each packet takes its own. -/
theorem packets_advance (p : Protocol) : p.advance.packets = p.packets.map Packet.advance := by
  simp only [packets, advance, List.map_map]
  exact List.map_congr_left fun e _ => e.packet_advance

/-- Eating stages values and moves nothing else. -/
theorem packets_eat (p : Protocol) (input : Bytes) : (p.eat input).1.packets = p.packets :=
  map_envelopes_eat (fun _ _ => rfl) p input

/-- Eating leaves the packets as they are. -/
theorem packets_chew (p : Protocol) (steps : Nat) (input : Bytes) :
    (p.chew steps input).1.packets = p.packets := by
  induction steps generalizing p input with
  | zero => rfl
  | succ steps ih =>
    cases h : p.bite? input with
    | none => rw [chew_of_none _ h]
    | some b => rw [chew_of_some _ h, ih, packets_eat]

end Protocol

namespace Link

/-- The link as a sender. -/
def sender (link : Link) : Sender :=
  { packets := link.protocol.packets
    period := link.settings.sendPeriod
    noise := link.outputNoise
    startedAt := link.startedAt
    nextOutputAt := link.nextOutputAt }

/-- Feeding leaves a link the sender that it is. -/
theorem sender_feed (link : Link) (bytes : Bytes) : (link.feed bytes).sender = link.sender := by
  rw [feed_eq]
  rfl

/-- Before its output, a cycle moves nothing that output depends on. -/
theorem sender_intake (link : Link) (now : Duration) :
    (link.intake now).link.sender =
      { link.sender with startedAt := some (link.startTime now) } := by
  have hpackets : (link.intake now).link.protocol.packets = link.protocol.packets :=
    link.protocol.packets_chew _ _
  rw [sender, hpackets]
  rfl

variable {a b : Link}

/-- When output is due depends on the sender only. -/
theorem due?_congr (h : a.sender = b.sender) (now : Duration) : a.due? now = b.due? now := by
  have hperiod : a.settings.sendPeriod = b.settings.sendPeriod := congrArg Sender.period h
  have hstarted : a.startedAt = b.startedAt := congrArg Sender.startedAt h
  have hnext : a.nextOutputAt = b.nextOutputAt := congrArg Sender.nextOutputAt h
  rw [due?, due?, startTime, startTime, hperiod, hstarted, hnext]

/-- Links that are alike as senders send the same and stay alike. -/
theorem sendOutput_congr (h : a.sender = b.sender) (cells : Cells) (now : Duration) :
    (a.sendOutput cells now).map (fun r => (r.1.sender, r.2)) =
      (b.sendOutput cells now).map fun r => (r.1.sender, r.2) := by
  have hpackets : a.protocol.packets = b.protocol.packets := congrArg Sender.packets h
  have hperiod : a.settings.sendPeriod = b.settings.sendPeriod := congrArg Sender.period h
  have hnoise : a.outputNoise = b.outputNoise := congrArg Sender.noise h
  have hstarted : a.startedAt = b.startedAt := congrArg Sender.startedAt h
  have hnext : a.nextOutputAt = b.nextOutputAt := congrArg Sender.nextOutputAt h
  have hemit : a.protocol.emit cells = b.protocol.emit cells := by
    rw [Protocol.emit_eq_packets, Protocol.emit_eq_packets, hpackets]
  have hdisturb (blob : Bytes) : a.disturbOutput blob = b.disturbOutput blob := by
    rw [disturbOutput, disturbOutput, hnoise]
  have hadvance : a.protocol.advance.packets = b.protocol.advance.packets := by
    rw [Protocol.packets_advance, Protocol.packets_advance, hpackets]
  simp only [sendOutput, hperiod, hnext, hemit, hdisturb]
  cases hb : b.settings.sendPeriod with
  | none => simp only [Option.map_some, h]
  | some period =>
    cases hdue : b.nextOutputAt with
    | none => simp only [Option.map_some, h]
    | some due =>
      by_cases hwait : now < due
      · simp only [if_pos hwait, Option.map_some, h]
      · simp only [if_neg hwait, Option.map_map, Function.comp_def, sender, hadvance, hperiod,
          hstarted]

end Link

/-- What the sink and an observer of output see of a cycle. -/
structure Sending where
  now : Duration
  sent : List LinkEvent
  output : Option Bytes
  deriving DecidableEq, Repr

/-- What was sent in the cycle. -/
def CycleLog.sending (c : CycleLog) : Sending := ⟨c.now, c.events.filter LinkEvent.isSent, c.output⟩

/-- What was sent in a run, cycle by cycle. -/
def Log.sendings (log : Log) : List Sending := log.cycles.map CycleLog.sending

namespace Link

variable {a b : Link} {cells : Cells} {now : Duration}

/-- The events about output are those that output adds. -/
theorem filter_isSent_intake (link : Link) (now : Duration) {sent : List LinkEvent}
    (h : ∀ e ∈ sent, ∃ n, e = .sent n) :
    ((link.intake now).events ++ sent).filter LinkEvent.isSent = sent := by
  have hbefore : (link.intake now).events.filter LinkEvent.isSent = [] := by
    refine List.filter_eq_nil_iff.mpr fun e he => ?_
    rcases mem_intake.mp he with ⟨-, rfl⟩ | ⟨-, rfl⟩ | ⟨-, rfl⟩ <;> exact Bool.false_ne_true
  have hsent : sent.filter LinkEvent.isSent = sent := by
    refine List.filter_eq_self.mpr fun e he => ?_
    obtain ⟨n, rfl⟩ := h e he
    rfl
  rw [List.filter_append, hbefore, hsent, List.nil_append]

/-- What a cycle leaves to the sender and to the cells, and what it sends. -/
def outcome (r : CycleResult) : Sender × Cells × List LinkEvent × Option Bytes :=
  (r.link.sender, r.cells, r.events.filter LinkEvent.isSent, r.output)

/-- A cycle of a link that only reads its cells is an output for them as they are. -/
theorem process_of_readsOnly {link : Link} (h : link.protocol.ReadsOnly) (cells : Cells)
    (now : Duration) :
    (link.process cells now).map outcome =
      if link.starts now then
        (((link.intake now).link.setDue (link.due? now)).sendOutput cells now).map fun r =>
          (r.1.sender, cells, r.2)
      else none := by
  rw [process_eq, writes_of_readsOnly h, Cells.replay_nil]
  by_cases hstarts : link.starts now = true
  · rw [if_pos hstarts, if_pos hstarts, Option.map_map]
    refine Option.map_congr fun r hr => ?_
    have hsent := (sendOutput_eq_some hr).2.2
    simp only [Function.comp_apply, outcome, link.filter_isSent_intake now hsent]
  · rw [if_neg hstarts, if_neg hstarts, Option.map_none]

/-- Whatever else they are, links that are alike as senders send the same in a cycle if they only
read their cells. -/
theorem process_congr (ha : a.protocol.ReadsOnly) (hb : b.protocol.ReadsOnly)
    (h : a.sender = b.sender) (cells : Cells) (now : Duration) :
    (a.process cells now).map outcome = (b.process cells now).map outcome := by
  have hstarts : a.starts now = b.starts now := by
    have hperiod : a.settings.sendPeriod = b.settings.sendPeriod := congrArg Sender.period h
    rw [starts, starts, hperiod, due?_congr h]
  have hstart : a.startTime now = b.startTime now := by
    have hstarted : a.startedAt = b.startedAt := congrArg Sender.startedAt h
    rw [startTime, startTime, hstarted]
  have hready : ((a.intake now).link.setDue (a.due? now)).sender =
      ((b.intake now).link.setDue (b.due? now)).sender := by
    have hsetDue (link : Link) (due : Option Duration) :
        (link.setDue due).sender = { link.sender with nextOutputAt := due } := rfl
    rw [hsetDue, hsetDue, sender_intake, sender_intake, h, hstart, due?_congr h]
  have hsend := congrArg (Option.map fun r => (r.1, cells, r.2))
    (sendOutput_congr hready cells now)
  simp only [Option.map_map, Function.comp_def] at hsend
  rw [process_of_readsOnly ha, process_of_readsOnly hb, hstarts, hsend]

end Link

/-! ### Runs without input -/

namespace Action

/-- Whether the action has to do with cells or time, and not with input. -/
def isOutside : Action → Bool
  | .feed _ => false
  | .discard => false
  | .assign _ => true
  | .cycle _ => true

/-- What the surroundings assign to cells. -/
def writes : Action → List Assignment
  | .assign write => [write]
  | _ => []

end Action

/-- One more entry adds what its cycle sends, if it is one. -/
@[simp] theorem Log.sendings_concat (log : Log) (e : Entry) :
    Log.sendings (log ++ [e]) = log.sendings ++ (e.cycle?.map CycleLog.sending).toList := by
  rw [sendings, cycles_concat, List.map_append, ← sendings]
  cases e.cycle? <;> rfl

namespace Site

variable {s s' t t' : Site} {actions : List Action} {log log' : Log}

/-- A link that only reads its cells never assigns any. -/
theorem Run.linkWrites_of_readsOnly (h : s.Run actions log t) (hreads : s.link.protocol.ReadsOnly) :
    log.linkWrites = [] ∧ t.cells = s.cells.replay (actions.flatMap Action.writes) := by
  induction h with
  | start => exact ⟨rfl, rfl⟩
  | @step actions log t u a e run last ih =>
    obtain ⟨hnone, hcells⟩ := ih
    rw [Log.linkWrites_concat, hnone, List.nil_append, List.flatMap_append, Cells.replay_append,
      ← hcells, List.flatMap_singleton]
    cases Step.of_step? last with
    | feed bytes => exact ⟨rfl, rfl⟩
    | discard => exact ⟨rfl, rfl⟩
    | assign write => exact ⟨rfl, rfl⟩
    | cycle c v hc =>
      have hwrites : c.writes = [] := by
        rw [hc.writes]
        exact Link.writes_of_readsOnly (hreads.congr run.readers.symm) c.now
      refine ⟨hwrites, ?_⟩
      rw [hc.cells, hwrites]
      rfl

/-- Leave all input out of a run of a link that only reads its cells, start from any link that is
alike as a sender, and the same is sent. -/
theorem Run.purge (h : s.Run actions log t) (hreads : s.link.protocol.ReadsOnly)
    (hreads' : s'.link.protocol.ReadsOnly) (hsender : s'.link.sender = s.link.sender)
    (hcells : s'.cells = s.cells) :
    ∃ log' t', s'.Run (actions.filter Action.isOutside) log' t' ∧
      t'.link.sender = t.link.sender ∧ t'.cells = t.cells ∧ log'.sendings = log.sendings := by
  induction h with
  | start => exact ⟨[], s', .start, hsender, hcells, rfl⟩
  | @step actions log t u a e run last ih =>
    obtain ⟨log', t', run', hsame, hsameCells, hsendings⟩ := ih
    rw [List.filter_append]
    cases a with
    | feed bytes =>
      cases last
      refine ⟨log', t', by simpa [Action.isOutside] using run', ?_, hsameCells, ?_⟩
      · rw [hsame, Link.sender_feed]
      · simpa using hsendings
    | discard =>
      cases last
      exact ⟨log', t', by simpa [Action.isOutside] using run', hsame, hsameCells,
        by simpa using hsendings⟩
    | assign write =>
      cases last
      refine ⟨log' ++ [.assigned write],
        ⟨t'.link, t'.cells.put write.cell write.value⟩, .step run' rfl, hsame, ?_, ?_⟩
      · rw [hsameCells]
      · simpa using hsendings
    | cycle now =>
      obtain ⟨r, hr, heq⟩ := Option.map_eq_some_iff.mp last
      cases heq
      have houtcome := Link.process_congr (hreads'.congr run'.readers.symm)
        (hreads.congr run.readers.symm) hsame t'.cells now
      rw [hsameCells, hr, Option.map_some, ← hsameCells] at houtcome
      obtain ⟨r', hr', hview⟩ := Option.map_eq_some_iff.mp houtcome
      obtain ⟨hlink, hview⟩ := Prod.mk.inj hview
      obtain ⟨hafter, hview⟩ := Prod.mk.inj hview
      obtain ⟨hsent, houtput⟩ := Prod.mk.inj hview
      have hstep : t'.step? (.cycle now) =
          some (.cycled (t'.link.cycleLog now r'), ⟨r'.link, r'.cells⟩) := by
        rw [step?, hr', Option.map_some]
      refine ⟨_, _, .step run' hstep, hlink, hafter, ?_⟩
      simp only [Log.sendings_concat, hsendings, Entry.cycle?, Option.map_some, CycleLog.sending,
        Link.cycleLog, hsent, houtput]

end Site

/-- A link for a layout that was built to only read its cells is immune to its input. Take two runs
with the same assignments and cycles, and with any input and interference with it. Neither link
ever assigns a cell, so the cells are what the surroundings make of them, and both links report
and output the same in each cycle, byte for byte. -/
theorem read_only_immune {o : Layout.Options} {d : Layout.Document} {l : Layout} {probability : Binary64}
    {entropy : Entropy} {link link' : Link} {cells : Cells} {actions actions' : List Action}
    {log log' : Log} {t t' : Site} (hbuild : Layout.build o d = .ok l) (hreads : o.readOnly = true)
    (hlink : l.link entropy = .ok link)
    (hlink' : { l with
      settings := { l.settings with inputInterference := probability } }.link entropy = .ok link')
    (h : Site.Run ⟨link, cells⟩ actions log t) (h' : Site.Run ⟨link', cells⟩ actions' log' t')
    (houtside : actions'.filter Action.isOutside = actions.filter Action.isOutside) :
    (log.linkWrites = [] ∧ t.cells = cells.replay (actions.flatMap Action.writes)) ∧
      (log'.linkWrites = [] ∧ t'.cells = t.cells) ∧ log'.sendings = log.sendings := by
  have hnew := of_mapError_ok hlink
  have hnew' := of_mapError_ok hlink'
  have hreadsOnly := Layout.readsOnly_of_build hbuild hreads
  have hlinkReads : link.protocol.ReadsOnly := (Link.Fresh.of_new hnew).protocol ▸ hreadsOnly
  have hlinkReads' : link'.protocol.ReadsOnly := (Link.Fresh.of_new hnew').protocol ▸ hreadsOnly
  have hsender : (Site.mk link cells).link.sender = (Site.mk link' cells).link.sender := by
    simp only [Link.new] at hnew hnew'
    obtain ⟨_, -, rfl⟩ := Packet.map_ok_iff.mp hnew
    obtain ⟨_, -, rfl⟩ := Packet.map_ok_iff.mp hnew'
    rfl
  -- Both runs come down to the run of the first link without any input.
  obtain ⟨pure, u, hrun, -, hcells, hsendings⟩ := h.purge hlinkReads hlinkReads rfl rfl
  obtain ⟨pure', u', hrun', -, hcells', hsendings'⟩ :=
    h'.purge hlinkReads' hlinkReads hsender rfl
  rw [houtside] at hrun'
  obtain ⟨rfl, rfl⟩ := hrun.unique hrun'
  exact ⟨h.linkWrites_of_readsOnly hlinkReads,
    ⟨(h'.linkWrites_of_readsOnly hlinkReads').1, hcells'.symm.trans hcells⟩,
    hsendings'.symm.trans hsendings⟩

/-! ### A small system

A display shows a level that the surroundings set. It serves for an example.
-/

namespace Display

/-- The level is sent once a second, and silence is reported after that time. -/
def document : Layout.Document :=
  { cells := [("level", .unsigned)]
    envelopes := [⟨"ab", 1, 0, [.value ⟨"level", 2, false, none, none⟩]⟩]
    link := some
      { Settings.default with
        sendFrequency := some .one
        failsafeAfter := some (.ofSeconds 1 0)
        interferenceSeed := some 1 }
    seed := none }

/-- The link only reads its cells. -/
def options : Layout.Options := { Layout.Options.default with readOnly := true }

/-- The surroundings set the level to five. -/
def set : Action := .assign ⟨"level", some (.unsigned 5)⟩

/-- An envelope with another level arrives. -/
def answered : List Action :=
  [set, .feed [0xAB, 2, 1], .cycle .zero, .cycle (.ofSeconds 2 0)]

/-- Only garbage arrives, and some of it is discarded. -/
def disturbed : List Action :=
  [.feed [7, 7, 0xAB], set, .cycle .zero, .feed [0xAB, 2, 1], .discard, .cycle (.ofSeconds 2 0)]

/-- What is sent shows the level that was set, and not the one that arrived. -/
def shown : List Sending :=
  [⟨.zero, [], none⟩, ⟨.ofSeconds 2 0, [.sent 3], some [0xAB, 5, 0]⟩]

/-- The second link spoils every piece of its input. -/
theorem read_only_immune_display :
    ∃ l link link' log log' t t', Layout.build options document = .ok l ∧
      l.link 0 = .ok link ∧
      { l with settings := { l.settings with inputInterference := .one } }.link 0 = .ok link' ∧
      Site.Run ⟨link, l.cells⟩ answered log t ∧ Site.Run ⟨link', l.cells⟩ disturbed log' t' ∧
      disturbed.filter Action.isOutside = answered.filter Action.isOutside ∧
      log'.linkWrites = [] ∧ t'.cells = l.cells.replay [⟨"level", some (.unsigned 5)⟩] ∧
      log.sendings = shown ∧ log'.sendings = shown := by
  have hruns : ((Layout.build options document).toOption.bind fun l =>
      (l.link 0).toOption.bind fun link =>
        ({ l with settings := { l.settings with inputInterference := .one } }.link 0).toOption.bind
          fun link' => (Site.run? ⟨link, l.cells⟩ answered).bind fun r =>
            (Site.run? ⟨link', l.cells⟩ disturbed).map fun _ => r.1.sendings) = some shown := by
    decide +kernel
  obtain ⟨l, hbuild, hruns⟩ := Option.bind_eq_some_iff.mp hruns
  obtain ⟨link, hlink, hruns⟩ := Option.bind_eq_some_iff.mp hruns
  obtain ⟨link', hlink', hruns⟩ := Option.bind_eq_some_iff.mp hruns
  obtain ⟨⟨log, t⟩, hrun, hruns⟩ := Option.bind_eq_some_iff.mp hruns
  obtain ⟨⟨log', t'⟩, hrun', hshown⟩ := Option.map_eq_some_iff.mp hruns
  have hbuild := of_toOption_some hbuild
  have hlink := of_toOption_some hlink
  have hlink' := of_toOption_some hlink'
  obtain ⟨⟨-, hcells⟩, ⟨hnone, hcells'⟩, hsame⟩ := read_only_immune hbuild rfl hlink hlink'
    (Site.Run.of_run? hrun) (Site.Run.of_run? hrun') rfl
  exact ⟨l, link, link', log, log', t, t', hbuild, hlink, hlink', .of_run? hrun, .of_run? hrun',
    rfl, hnone, hcells'.trans hcells, hshown, hsame.trans hshown⟩

end Display

end DataLink
