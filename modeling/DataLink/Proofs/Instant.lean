import DataLink.Proofs.Buffer
import DataLink.Proofs.Isolation
import DataLink.Proofs.Schedule

/-!
# Cycles at one time

A cycle leaves nothing behind for another one at the same time. What is left in the buffer waits
for more, no timer runs out, and output is due later. So the link stays as it is, with its cells and
all of its state, until something arrives or time goes on.
-/

namespace DataLink

namespace Link

variable {link : Link} {now : Duration}

/-- A link that has nothing to do at a time. -/
structure Settled (link : Link) (now : Duration) : Prop where
  /-- Nothing is buffered, or it waits for more. -/
  waits : link.protocol.bite? link.input = none
  /-- Garbage has not lasted for too long. -/
  clean : link.reacquireDue now = false
  /-- Silence has not lasted for too long, or it is reported. -/
  calm : ∃ startedAt, link.startedAt = some startedAt ∧ link.failsafeDue now startedAt = false
  /-- Output is disabled, or it is due later. -/
  ahead : ∀ period, link.settings.sendPeriod = some period →
    ∃ due, link.nextOutputAt = some due ∧ now < due

/-- Silence is reported once. -/
theorem failsafeDue_of_active (h : link.failsafeActive = true) (now startedAt : Duration) :
    link.failsafeDue now startedAt = false := by
  unfold failsafeDue
  split
  · rw [h, Bool.not_true, Bool.false_and]
  · rfl

/-- Whether garbage has lasted too long depends on the settings and on when it started. -/
theorem reacquireDue_congr {a b : Link} (hsettings : b.settings = a.settings)
    (hgarbage : b.garbageSince = a.garbageSince) (now : Duration) :
    b.reacquireDue now = a.reacquireDue now := by
  rw [reacquireDue, reacquireDue, hsettings, hgarbage]

/-- Whether failsafe is due depends on the settings, on whether it is active and on the last valid
time. -/
theorem failsafeDue_congr {a b : Link} (hsettings : b.settings = a.settings)
    (hactive : b.failsafeActive = a.failsafeActive) (hvalid : b.lastValidAt = a.lastValidAt)
    (now startedAt : Duration) : b.failsafeDue now startedAt = a.failsafeDue now startedAt := by
  rw [failsafeDue, failsafeDue, hsettings, hactive, hvalid]

/-- A cycle that sends has output due later, and one that waits for output leaves it due later. -/
theorem ahead_of_process {cells : Cells} {r : CycleResult} {period : Duration}
    (hperiod : link.settings.sendPeriod = some period) (hpos : .zero < period)
    (h : link.process cells now = some r) :
    ∃ due, r.link.nextOutputAt = some due ∧ now < due := by
  obtain ⟨sent, -, hpaces⟩ := paces_of_process h
  generalize r.link.nextOutputAt = next at hpaces ⊢
  cases hpaces with
  | waits hwaits => exact hwaits period hperiod
  | @sends period' due next _ hperiod' _ hle hnext =>
    obtain rfl := Option.some.inj (hperiod.symm.trans hperiod')
    have hpos : 0 < period.nanos := hpos
    have hdue : due.nanos ≤ now.nanos := hle
    have hlater : now.nanos < next.nanos := by
      rcases nanos_of_followingOutput? hnext with ⟨-, hlt⟩ | ⟨hnanos, -⟩
      · exact hlt
      · omega
    exact ⟨next, rfl, hlater⟩

end Link

namespace Site.Cycles

variable {s t : Site} {c : CycleLog}

/-- After a cycle the garbage that it found has not lasted for too long, or is forgotten. -/
theorem reacquireDue (h : s.Cycles c t) : t.link.reacquireDue c.now = false := by
  have hsettings : t.link.settings = (s.link.eaten c.now).settings := h.settings
  have hgarbage : t.link.garbageSince =
      if s.link.reacquires c.now then none else (s.link.eaten c.now).garbageSince :=
    (congrArg Link.garbageSince h.link).trans rfl
  cases hdrops : s.link.reacquires c.now with
  | false =>
    rw [hdrops, if_neg Bool.false_ne_true] at hgarbage
    exact (Link.reacquireDue_congr hsettings hgarbage c.now).trans hdrops
  | true =>
    rw [hdrops, if_pos rfl] at hgarbage
    exact Link.reacquireDue_of_none hgarbage c.now

/-- After a cycle silence has not lasted for too long, or it is reported. -/
theorem failsafeDue (h : s.Cycles c t) :
    t.link.failsafeDue c.now (s.link.startTime c.now) = false := by
  have hsettings : t.link.settings = (s.link.eaten c.now).settings := h.settings
  have hactive :
      t.link.failsafeActive = ((s.link.eaten c.now).failsafeActive || s.link.fails c.now) :=
    (congrArg Link.failsafeActive h.link).trans rfl
  have hvalid : t.link.lastValidAt = (s.link.eaten c.now).lastValidAt :=
    (congrArg Link.lastValidAt h.link).trans rfl
  cases hfails : s.link.fails c.now with
  | false =>
    rw [hfails, Bool.or_false] at hactive
    exact (Link.failsafeDue_congr hsettings hactive hvalid c.now _).trans hfails
  | true =>
    rw [hfails, Bool.or_true] at hactive
    exact Link.failsafeDue_of_active hactive c.now _

end Site.Cycles

namespace Link

variable {link : Link} {now : Duration}

/-- Once a cycle is over, nothing is left to do at its time. -/
theorem settled_of_process {cells : Cells} {r : CycleResult}
    (hperiod : ∀ period, link.settings.sendPeriod = some period → .zero < period)
    (h : link.process cells now = some r) : r.link.Settled now := by
  have hcycle := Site.Cycles.of_process h
  have hstarted : r.link.startedAt = some (link.startTime now) :=
    congrArg Link.startedAt hcycle.link
  have hsettings : r.link.settings = link.settings := hcycle.settings
  refine ⟨?_, hcycle.reacquireDue, ⟨_, hstarted, hcycle.failsafeDue⟩, ?_⟩
  · exact (Protocol.bite?_congr hcycle.readers _).trans hcycle.bite?_input
  · intro period hsends
    rw [hsettings] at hsends
    exact ahead_of_process hsends (hperiod period hsends) h

namespace Settled

/-- A settled link has nothing to eat. -/
theorem bites (h : link.Settled now) : link.bites = [] := by
  rw [Link.bites, chewed, Protocol.chew_of_none _ h.waits]

/-- A settled link stays as it is when it is to eat. -/
theorem eaten_eq (h : link.Settled now) : link.eaten now = link := by
  obtain ⟨startedAt, hstarted, -⟩ := h.calm
  have hstart : ({ link with startedAt := some (link.startTime now) } : Link) = link := by
    rw [startTime, hstarted, Option.getD_some, ← hstarted]
  rw [eaten, h.bites, chewed, Protocol.chew_of_none _ h.waits, hstart, afterBites_nil]

/-- Eating and the timers for garbage and silence do nothing. -/
theorem intake_eq (h : link.Settled now) : link.intake now = ⟨link, [], []⟩ := by
  obtain ⟨startedAt, hstarted, hcalm⟩ := h.calm
  have hfails : link.fails now = false := by
    rw [fails, h.eaten_eq, startTime, hstarted]
    exact hcalm
  have hdrops : link.reacquires now = false := by
    rw [reacquires, h.eaten_eq]
    exact h.clean
  simp [intake, h.eaten_eq, h.bites, hfails, hdrops, acquires]

/-- A settled link has scheduled its output. -/
theorem due?_eq (h : link.Settled now) : link.due? now = link.nextOutputAt := by
  cases hperiod : link.settings.sendPeriod with
  | none => rw [due?, hperiod, Option.bind_none, Option.or_none]
  | some period =>
    obtain ⟨due, hdue, -⟩ := h.ahead period hperiod
    rw [due?, hdue, Option.some_or]

/-- A cycle does nothing at all, whatever the cells hold. -/
theorem process (h : link.Settled now) (cells : Cells) :
    link.process cells now = some ⟨link, cells, [], none⟩ := by
  have hstarts : link.starts now = true := starts_iff.mpr fun period hperiod => by
    obtain ⟨due, hdue, -⟩ := h.ahead period hperiod
    exact ⟨due, h.due?_eq.trans hdue⟩
  have hsend : link.sendOutput cells now = some (link, [], none) := by
    unfold sendOutput
    split
    · next period due hperiod hdue =>
      obtain ⟨due', hdue', hlt⟩ := h.ahead period hperiod
      obtain rfl := Option.some.inj (hdue.symm.trans hdue')
      rw [if_pos hlt]
    · rfl
  rw [process_eq, if_pos hstarts, h.intake_eq, h.due?_eq]
  exact congrArg (Option.map _) hsend

end Settled

end Link

/-- Another cycle at the same time, or an assignment to a cell by the surroundings. -/
inductive Action.AtOnce (now : Duration) : Action → Prop where
  | cycle : AtOnce now (.cycle now)
  | assign (write : Assignment) : AtOnce now (.assign write)

namespace Node

variable {W : Type} [Sink W] {node : Node W} {now : Duration}

/-- A cycle at a time at which a link is settled changes nothing and reports nothing. -/
theorem process_of_settled (h : node.link.Settled now) : node.process now = some (node, []) := by
  rw [process, h.process]
  rfl

/-- The log of a cycle without anything to do is empty. -/
theorem step?_of_settled (h : node.link.Settled now) :
    node.step? (.cycle now) = some (.cycled ⟨now, [], [], [], none⟩, node) := by
  have hlog : node.link.cycleLog now ⟨node.link, node.cells, [], none⟩ =
      ⟨now, [], [], [], none⟩ := by
    rw [Link.cycleLog, h.bites, h.intake_eq]
  rw [step?, Site.step?, h.process, Option.map_some, Option.map_some, hlog]
  rfl

/-- So nothing happens until something arrives or time goes on. -/
theorem run?_of_settled (h : node.link.Settled now) {later : List Action}
    (hlater : ∀ a ∈ later, a.AtOnce now) :
    ∃ log, node.run? later =
        some (log, { node with cells := node.cells.replay (later.flatMap Action.writes) }) ∧
      ∀ c ∈ Log.cycles log, c = ⟨now, [], [], [], none⟩ := by
  induction later generalizing node with
  | nil => exact ⟨[], rfl, by simp [Log.cycles]⟩
  | cons a rest ih =>
    obtain ⟨hfirst, hrest⟩ := List.forall_mem_cons.mp hlater
    cases hfirst with
    | cycle =>
      obtain ⟨log, hrun, hcycles⟩ := ih h hrest
      refine ⟨.cycled ⟨now, [], [], [], none⟩ :: log, ?_, ?_⟩
      · simp only [run?, step?_of_settled h, Option.bind_some, hrun, Option.map_some]
        rfl
      · exact List.forall_mem_cons.mpr ⟨rfl, hcycles⟩
    | assign write =>
      obtain ⟨log, hrun, hcycles⟩ :=
        @ih { node with cells := node.cells.put write.cell write.value } h hrest
      refine ⟨.assigned write :: log, ?_, hcycles⟩
      have hstep : node.step? (.assign write) =
          some (.assigned write,
            { node with cells := node.cells.put write.cell write.value }) := rfl
      simp only [run?, hstep, Option.bind_some, hrun, Option.map_some]
      rfl

/-- A run of a node is one of its link with its cells. -/
theorem run_of_run? {actions : List Action} {log : Log} {last : Node W}
    (h : node.run? actions = some (log, last)) :
    Site.Run ⟨node.link, node.cells⟩ actions log ⟨last.link, last.cells⟩ := by
  induction actions generalizing node log with
  | nil =>
    cases h
    exact .start
  | cons a rest ih =>
    obtain ⟨⟨entry, next⟩, hstep, hrest⟩ := Option.bind_eq_some_iff.mp h
    obtain ⟨⟨log', last'⟩, hrun, heq⟩ := Option.map_eq_some_iff.mp hrest
    cases heq
    obtain ⟨⟨entry', site⟩, hsite, heq⟩ := Option.map_eq_some_iff.mp hstep
    cases heq
    exact .cons hsite (ih hrun)

end Node

/-- Cycles are idempotent at one time. Take any link that sends with a period of some length, or
does not send at all, in any state that it can get into, and let it run a cycle. If it runs another
one at the same time, that one reports nothing and changes nothing of the link, the cells and the
sink. The same is true of any number of further cycles, also if cells are assigned in between. -/
theorem process_idempotent {W : Type} [Sink W] {protocol : Protocol} {settings : Settings}
    {entropy : Entropy} {link : Link} {cells : Cells} {sink : W} {actions : List Action} {log : Log}
    {node next : Node W} {now : Duration} {events : List LinkEvent}
    (hnew : Link.new protocol settings entropy = .ok link)
    (hperiod : ∀ period, settings.sendPeriod = some period → .zero < period)
    (hrun : Node.run? ⟨link, cells, sink⟩ actions = some (log, node))
    (hfirst : node.process now = some (next, events)) :
    next.process now = some (next, []) ∧
      ∀ later : List Action, (∀ a ∈ later, a.AtOnce now) →
        ∃ log', next.run? later =
            some (log', { next with cells := next.cells.replay (later.flatMap Action.writes) }) ∧
          ∀ c ∈ Log.cycles log', c = ⟨now, [], [], [], none⟩ := by
  have hsettings : node.link.settings = settings :=
    (Node.run_of_run? hrun).settings.trans (Link.Fresh.of_new hnew).settings
  obtain ⟨r, hr, heq⟩ := Option.map_eq_some_iff.mp hfirst
  have hsettled : next.link.Settled now := by
    obtain ⟨rfl, -⟩ := Prod.mk.inj heq
    exact Link.settled_of_process (hsettings.symm ▸ hperiod) hr
  exact ⟨Node.process_of_settled hsettled, fun _ => Node.run?_of_settled hsettled⟩

namespace Gauge

/-- All timers run for a second. -/
def watchful : Settings :=
  { secondly with failsafeAfter := some (.ofSeconds 1 0), reacquireAfter := some (.ofSeconds 1 0) }

/-- A link that watches over its input can be set up. -/
theorem new_watchful : Link.new protocol watchful 0 = .ok { link with settings := watchful } := by
  have hprotocol : protocol.verify = .ok () := rfl
  have hvalid : watchful.validate = .ok () := by decide +kernel
  simp only [Link.new, Link.verify, hprotocol, hvalid]
  rfl

/-- Garbage, and later the start of an envelope. -/
def straying : List Action := [.feed [7], .cycle .zero, .feed [0xAB, 2]]

/-- All timers run out in one cycle, and in the next one none does. -/
theorem process_idempotent_gauge :
    ∃ log node next, Node.run? ⟨{ link with settings := watchful }, site.cells, ([] : Bytes)⟩
        straying = some (log, node) ∧
      node.process (.ofMillis 2500) = some (next, [.reacquired 2, .failsafe, .sent 3]) ∧
      next.process (.ofMillis 2500) = some (next, []) := by
  have hperiod : watchful.sendPeriod = some (.ofSeconds 1 0) := by decide +kernel
  have hevents : ((Node.run? ⟨{ link with settings := watchful }, site.cells, ([] : Bytes)⟩
      straying).bind fun r => (r.2.process (.ofMillis 2500)).map Prod.snd) =
        some [.reacquired 2, .failsafe, .sent 3] := by
    decide +kernel
  obtain ⟨⟨log, node⟩, hrun, hfirst⟩ := Option.bind_eq_some_iff.mp hevents
  obtain ⟨⟨next, events⟩, hfirst, rfl⟩ := Option.map_eq_some_iff.mp hfirst
  have hpositive : ∀ period, watchful.sendPeriod = some period → .zero < period := by
    intro period hsome
    rw [hperiod] at hsome
    cases hsome
    decide
  exact ⟨log, node, next, hrun, hfirst,
    (process_idempotent new_watchful hpositive hrun hfirst).1⟩

end Gauge

end DataLink
