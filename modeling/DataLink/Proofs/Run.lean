import DataLink.Proofs.Cycle
import DataLink.Proofs.Log

/-!
# Runs of a link

A link shares its cells with surroundings that feed it, let it discard its input, assign cells
themselves, and call for cycles at times of their choice. A run is any sequence of such actions
from any state.
-/

namespace DataLink

/-- Zero is a probability. -/
theorem Settings.checkProbability_zero (setting : Setting) :
    checkProbability setting .zero = .ok () := by
  have hzero : Binary64.zero.isProbability = true := by decide +kernel
  exact if_pos hzero

/-- A link with the cells it shares with its surroundings. -/
structure Site where
  link : Link
  cells : Cells

/-- Whether the event tells of dropped input. -/
def LinkEvent.isReacquired : LinkEvent → Bool
  | .reacquired _ => true
  | _ => false

namespace Link

/-- What is put into the buffer when bytes are fed. -/
def arriving (link : Link) (bytes : Bytes) : Bytes :=
  match link.inputNoise with
  | none => bytes
  | some noise => (noise.disturb bytes).bytes

/-- Feeding changes the buffer and the source of interference only. -/
theorem feed_eq (link : Link) (bytes : Bytes) :
    link.feed bytes = { link with
      input := link.input ++ link.arriving bytes
      inputNoise := (link.feed bytes).inputNoise } := by
  unfold feed arriving
  split <;> simp_all

/-- Without a probability to spoil bytes, there is no source of interference. -/
theorem noise?_of_le_zero {probability : Binary64} (h : probability.le .zero = true)
    (seed : Option UInt64) (unseeded : Keystream) : noise? probability seed unseeded = none := by
  refine if_neg ?_
  simp only [Binary64.le, Binary64.lt, Bool.and_eq_true, decide_eq_true_eq] at h ⊢
  omega

/-- A link as it is set up. -/
structure Fresh (link : Link) (protocol : Protocol) (settings : Settings) : Prop where
  quiet : settings.inputInterference.le .zero = true → link.inputNoise = none
  protocol : link.protocol = protocol
  settings : link.settings = settings
  input : link.input = []
  stats : link.stats = ⟨0, 0, 0, 0, 0⟩
  startedAt : link.startedAt = none
  lastValidAt : link.lastValidAt = none
  failsafeActive : link.failsafeActive = false
  isValid : link.isValid = false
  garbageSince : link.garbageSince = none
  nextOutputAt : link.nextOutputAt = none

/-- A link that was just set up is fresh. -/
theorem Fresh.of_new {protocol : Protocol} {settings : Settings} {entropy : Entropy} {link : Link}
    (h : Link.new protocol settings entropy = .ok link) : link.Fresh protocol settings := by
  simp only [Link.new] at h
  obtain ⟨_, -, rfl⟩ := Packet.map_ok_iff.mp h
  exact ⟨fun hquiet => noise?_of_le_zero hquiet _ _, rfl, rfl, rfl, rfl, rfl, rfl, rfl, rfl, rfl,
    rfl⟩

/-- The events that a cycle may tell of before output. -/
theorem mem_intake {link : Link} {now : Duration} {e : LinkEvent} :
    e ∈ (link.intake now).events ↔
      (link.acquires link.bites = true ∧ e = .acquired) ∨
      (link.reacquires now = true ∧ e = .reacquired (link.eaten now).input.length) ∨
      (link.fails now = true ∧ e = .failsafe) := by
  simp only [intake, List.mem_append, List.mem_ite_nil_right, List.mem_singleton, or_assoc]

/-- Each of these events is told once. -/
theorem countP_intake (link : Link) (now : Duration) (q : LinkEvent → Bool) :
    (link.intake now).events.countP q =
      (link.acquires link.bites && q .acquired).toNat +
        (link.reacquires now && q (.reacquired (link.eaten now).input.length)).toNat +
        (link.fails now && q .failsafe).toNat := by
  have hone (b : Bool) (e : LinkEvent) :
      (if b = true then [e] else []).countP q = (b && q e).toNat := by
    cases b with
    | false => rfl
    | true =>
      rw [if_pos rfl, List.countP_singleton, Bool.true_and]
      cases q e <;> rfl
  simp only [intake, List.countP_append, hone]

/-- What one cycle contributes to the log. -/
def cycleLog (link : Link) (now : Duration) (r : CycleResult) : CycleLog :=
  { now
    bites := link.bites
    writes := (link.intake now).writes
    events := r.events
    output := r.output }

end Link

namespace Site

/-- Carries out an action. No value means that a time is not representable. -/
def step? (s : Site) : Action → Option (Entry × Site)
  | .feed bytes => some (.arrived (s.link.arriving bytes), { s with link := s.link.feed bytes })
  | .discard => some (.discarded s.link.buffered, { s with link := s.link.discardInput })
  | .assign write =>
    some (.assigned write, { s with cells := s.cells.put write.cell write.value })
  | .cycle now =>
    (s.link.process s.cells now).map fun r =>
      (.cycled (s.link.cycleLog now r), ⟨r.link, r.cells⟩)

/-- Actions carried out one after another lead from one state to another. -/
inductive Run (s : Site) : List Action → Log → Site → Prop where
  | start : s.Run [] [] s
  | step {actions : List Action} {log : Log} {t u : Site} {a : Action} {e : Entry}
      (run : s.Run actions log t) (last : t.step? a = some (e, u)) :
      s.Run (actions ++ [a]) (log ++ [e]) u

/-- Carries out actions one after another. -/
def run? (s : Site) : List Action → Option (Log × Site)
  | [] => some ([], s)
  | a :: actions =>
    match s.step? a with
    | none => none
    | some (e, t) => (t.run? actions).map fun (log, u) => (e :: log, u)

/-- A state that some actions lead to. -/
def Reaches (s t : Site) : Prop := ∃ actions log, s.Run actions log t

/-- A first action and a run after it are a run. -/
theorem Run.cons {s t u : Site} {a : Action} {e : Entry} {actions : List Action} {log : Log}
    (first : s.step? a = some (e, t)) (others : t.Run actions log u) :
    s.Run (a :: actions) (e :: log) u := by
  induction others with
  | start => exact .step .start first
  | step _ last ih => exact .step ih last

/-- A run of some actions and one more is a run of the former and a last step. -/
theorem Run.of_concat {s t : Site} {actions : List Action} {a : Action} {log : Log}
    (h : s.Run (actions ++ [a]) log t) :
    ∃ before e u, log = before ++ [e] ∧ s.Run actions before u ∧ u.step? a = some (e, t) := by
  generalize hall : actions ++ [a] = all at h
  cases h with
  | start => simp at hall
  | step run last =>
    obtain ⟨rfl, heq⟩ := List.append_inj' hall rfl
    obtain rfl := List.singleton_inj.mp heq
    exact ⟨_, _, _, rfl, run, last⟩

/-- A run of no actions stays where it is. -/
theorem Run.of_nil {s t : Site} {log : Log} (h : s.Run [] log t) : log = [] ∧ t = s := by
  generalize hnone : ([] : List Action) = none at h
  cases h with
  | start => exact ⟨rfl, rfl⟩
  | step => simp at hnone

/-- Actions have one course. -/
theorem Run.unique {s t t' : Site} {actions : List Action} {log log' : Log}
    (h : s.Run actions log t) (h' : s.Run actions log' t') :
    log' = log ∧ t' = t := by
  induction h generalizing log' t' with
  | start => exact h'.of_nil
  | step _ last ih =>
    obtain ⟨before, e, u, rfl, run', last'⟩ := h'.of_concat
    obtain ⟨rfl, rfl⟩ := ih run'
    cases last.symm.trans last'
    exact ⟨rfl, rfl⟩

/-- Every action has its entry. -/
theorem Run.length_log {s t : Site} {actions : List Action} {log : Log}
    (h : s.Run actions log t) : log.length = actions.length := by
  induction h with
  | start => rfl
  | step _ _ ih => rw [List.length_append, List.length_append, ih]; rfl

/-- The first actions of a run are a run. -/
theorem Run.take {s t : Site} {actions : List Action} {log : Log} (h : s.Run actions log t)
    (count : Nat) :
    ∃ u, s.Run (actions.take count) (log.take count) u := by
  induction h with
  | start => exact ⟨s, by simpa using .start⟩
  | @step actions log t u a e run last ih =>
    have hlength := run.length_log
    rcases Nat.lt_or_ge actions.length count with hall | hfew
    · have hactions : (actions ++ [a]).take count = actions ++ [a] :=
        List.take_of_length_le (by rw [List.length_append, List.length_singleton]; omega)
      have hlog : (log ++ [e]).take count = log ++ [e] :=
        List.take_of_length_le (by rw [List.length_append, List.length_singleton]; omega)
      rw [hactions, hlog]
      exact ⟨u, .step run last⟩
    · rw [List.take_append_of_le_length hfew, List.take_append_of_le_length (by omega)]
      exact ih

/-- What the executable form computes is a run. -/
theorem Run.of_run? {s t : Site} {actions : List Action} {log : Log}
    (h : s.run? actions = some (log, t)) : s.Run actions log t := by
  induction actions generalizing s log with
  | nil =>
    cases h
    exact .start
  | cons a actions ih =>
    simp only [run?] at h
    split at h
    · cases h
    · next e u hstep =>
      obtain ⟨⟨rest, v⟩, hrest, heq⟩ := Option.map_eq_some_iff.mp h
      cases heq
      exact .cons hstep (ih hrest)

/-- A run and a last action after it are a run. -/
theorem run?_concat {s t u : Site} {actions : List Action} {log : Log} {a : Action} {e : Entry}
    (h : s.run? actions = some (log, t)) (last : t.step? a = some (e, u)) :
    s.run? (actions ++ [a]) = some (log ++ [e], u) := by
  induction actions generalizing s log with
  | nil =>
    cases h
    simp only [List.nil_append, run?, last, Option.map_some]
  | cons b actions ih =>
    simp only [run?] at h
    split at h
    · cases h
    · next f v hstep =>
      obtain ⟨⟨rest, w⟩, hrest, heq⟩ := Option.map_eq_some_iff.mp h
      cases heq
      simp only [List.cons_append, run?, hstep, ih hrest, Option.map_some]

/-- The executable form computes all runs. -/
theorem Run.run?_eq {s t : Site} {actions : List Action} {log : Log} (h : s.Run actions log t) :
    s.run? actions = some (log, t) := by
  induction h with
  | start => rfl
  | step _ last ih => exact run?_concat ih last

/-- What one cycle of the log says about the states before and after it. -/
structure Cycles (s : Site) (c : CycleLog) (t : Site) : Prop where
  bites : c.bites = s.link.bites
  writes : c.writes = (s.link.intake c.now).writes
  link : t.link = { (s.link.intake c.now).link with
    protocol := t.link.protocol, outputNoise := t.link.outputNoise,
    nextOutputAt := t.link.nextOutputAt }
  readers : t.link.protocol.readers = s.link.protocol.readers
  cells : t.cells = s.cells.replay c.writes
  events : ∃ sent, c.events = (s.link.intake c.now).events ++ sent ∧
    ∀ e ∈ sent, ∃ n, e = LinkEvent.sent n

/-- What the link does in a cycle is a cycle of the site. -/
theorem Cycles.of_process {link : Link} {cells : Cells} {now : Duration} {r : CycleResult}
    (h : link.process cells now = some r) :
    Cycles ⟨link, cells⟩ (link.cycleLog now r) ⟨r.link, r.cells⟩ := by
  obtain ⟨hlink, hreaders, hcells, hevents⟩ := Link.process_spec h
  exact ⟨rfl, rfl, hlink, hreaders, hcells, hevents⟩

/-- What one action does, case by case. -/
inductive Step (s : Site) : Action → Entry → Site → Prop where
  | feed (bytes : Bytes) :
    s.Step (.feed bytes) (.arrived (s.link.arriving bytes)) ⟨s.link.feed bytes, s.cells⟩
  | discard : s.Step .discard (.discarded s.link.buffered) ⟨s.link.discardInput, s.cells⟩
  | assign (write : Assignment) :
    s.Step (.assign write) (.assigned write) ⟨s.link, s.cells.put write.cell write.value⟩
  | cycle (c : CycleLog) (t : Site) (h : s.Cycles c t) : s.Step (.cycle c.now) (.cycled c) t

/-- What comes of an action is a step. -/
theorem Step.of_step? {s t : Site} {a : Action} {e : Entry} (h : s.step? a = some (e, t)) :
    s.Step a e t := by
  cases a with
  | feed bytes =>
    cases h
    exact .feed bytes
  | discard =>
    cases h
    exact .discard
  | assign write =>
    cases h
    exact .assign write
  | cycle now =>
    obtain ⟨r, hr, heq⟩ := Option.map_eq_some_iff.mp h
    cases heq
    exact .cycle (s.link.cycleLog now r) ⟨r.link, r.cells⟩ (.of_process hr)

namespace Cycles

variable {s t : Site} {c : CycleLog}

/-- A cycle leaves the settings as they are. -/
theorem settings (h : s.Cycles c t) : t.link.settings = s.link.settings :=
  (congrArg Link.settings h.link).trans rfl

/-- Output adds events about bytes sent, and no others. -/
theorem mem_events (h : s.Cycles c t) {e : LinkEvent} (he : ∀ n, e ≠ .sent n) :
    e ∈ c.events ↔ e ∈ (s.link.intake c.now).events := by
  obtain ⟨sent, hevents, hsent⟩ := h.events
  rw [hevents, List.mem_append]
  constructor
  · rintro (hmem | hmem)
    · exact hmem
    · obtain ⟨n, hn⟩ := hsent e hmem
      exact absurd hn (he n)
  · exact Or.inl

/-- Of all events but output, a cycle reports those of its intake. -/
theorem countP_events (h : s.Cycles c t) {q : LinkEvent → Bool} (hq : ∀ n, q (.sent n) = false) :
    c.events.countP q = (s.link.intake c.now).events.countP q := by
  obtain ⟨sent, hevents, hsent⟩ := h.events
  have hnone : sent.countP q = 0 := by
    rw [List.countP_eq_zero]
    intro e hmem
    obtain ⟨n, rfl⟩ := hsent e hmem
    rw [hq n]
    exact Bool.false_ne_true
  rw [hevents, List.countP_append, hnone, Nat.add_zero]

/-- Failsafe is in the log exactly if the cycle found that silence had lasted too long. -/
theorem failsafe_mem_iff (h : s.Cycles c t) :
    .failsafe ∈ c.events ↔ s.link.fails c.now = true := by
  rw [h.mem_events (by simp), Link.mem_intake]
  simp

/-- A cycle reports that it dropped the buffer exactly if garbage has lasted too long, with the
bytes buffered then. -/
theorem reacquired_mem_iff (h : s.Cycles c t) {n : Nat} :
    .reacquired n ∈ c.events ↔
      s.link.reacquires c.now = true ∧ n = (s.link.eaten c.now).input.length := by
  rw [h.mem_events (by simp), Link.mem_intake]
  simp

/-- A cycle reports failsafe once or never. -/
theorem count_failsafe (h : s.Cycles c t) :
    c.events.count .failsafe = (s.link.fails c.now).toNat := by
  rw [List.count, h.countP_events (fun _ => rfl), Link.countP_intake]
  simp

/-- A cycle reports once or never that it dropped the buffer. -/
theorem countP_reacquired (h : s.Cycles c t) :
    c.events.countP LinkEvent.isReacquired = (s.link.reacquires c.now).toNat := by
  rw [h.countP_events (fun _ => rfl), Link.countP_intake]
  simp [LinkEvent.isReacquired]

/-- What is left in the buffer is what was not eaten, unless it was dropped. -/
theorem input_eq (h : s.Cycles c t) :
    t.link.input = if s.link.reacquires c.now then []
      else s.link.input.drop (Bite.total c.bites) := by
  rw [h.bites]
  exact congrArg Link.input h.link

/-- The buffered input was eaten in the bites of the log, until more of it was needed. -/
theorem eats (h : s.Cycles c t) :
    s.link.protocol.Eats s.link.input c.bites (s.link.input.drop (Bite.total c.bites)) ∧
      s.link.protocol.bite? (s.link.input.drop (Bite.total c.bites)) = none := by
  rw [h.bites]
  exact ⟨s.link.protocol.eats_chew _ _, s.link.protocol.bite?_chew (Nat.le_refl _)⟩

end Cycles

namespace Run

variable {s t : Site} {actions : List Action} {log : Log}

/-- What holds of the cycles so far and of the link holds along every run, if every cycle keeps it
and what is buffered has no part in it. -/
theorem of_cycles {I : List CycleLog → Link → Prop} (h : s.Run actions log t)
    (hstart : I [] s.link)
    (hbuffer : ∀ cycles link input inputNoise, I cycles link →
      I cycles { link with input, inputNoise })
    (hcycle : ∀ before c (u v : Site), u.Cycles c v → I before u.link → I (before ++ [c]) v.link) :
    I log.cycles t.link := by
  induction h with
  | start => exact hstart
  | step _ last ih =>
    rw [Log.cycles_concat]
    cases Step.of_step? last with
    | feed bytes =>
      rw [Link.feed_eq]
      simpa using hbuffer _ _ _ _ ih
    | discard => simpa [Link.discardInput] using hbuffer _ _ [] _ ih
    | assign write => simpa using ih
    | cycle c _ hc => exact hcycle _ c _ _ hc ih

/-- A run does not change the settings. -/
theorem settings (h : s.Run actions log t) : t.link.settings = s.link.settings := by
  induction h with
  | start => rfl
  | step _ last ih =>
    cases Step.of_step? last with
    | feed bytes => rw [Link.feed_eq, ih]
    | discard => exact ih
    | assign write => exact ih
    | cycle c t hc => exact hc.settings.trans ih

/-- How envelopes are read never changes. -/
theorem readers (h : s.Run actions log t) :
    t.link.protocol.readers = s.link.protocol.readers := by
  induction h with
  | start => rfl
  | step _ last ih =>
    cases Step.of_step? last with
    | feed bytes => rw [Link.feed_eq, ih]
    | discard => exact ih
    | assign write => exact ih
    | cycle c t hc => exact hc.readers.trans ih

/-- Without a source of interference, none appears. -/
theorem inputNoise (h : s.Run actions log t) (hnone : s.link.inputNoise = none) :
    t.link.inputNoise = none := by
  induction h with
  | start => exact hnone
  | step _ last ih =>
    cases Step.of_step? last with
    | feed bytes => rw [Link.feed, ih]
    | discard => exact ih
    | assign write => exact ih
    | cycle c t hc => exact (congrArg Link.inputNoise hc.link).trans ih

/-- The cells are what all logged assignments make of them, and nothing else touches them. -/
theorem cells (h : s.Run actions log t) : t.cells = s.cells.replay log.writes := by
  induction h with
  | start => rfl
  | step _ last ih =>
    rw [Log.writes_concat, Cells.replay_append, ← ih]
    cases Step.of_step? last with
    | feed bytes => rfl
    | discard => rfl
    | assign write => rfl
    | cycle c t hc => exact hc.cells

/-- The counters count what the log tells. -/
theorem stats (h : s.Run actions log t) :
    t.link.stats =
      { failsafes := s.link.stats.failsafes + log.events.count .failsafe
        reacquires := s.link.stats.reacquires + log.events.countP LinkEvent.isReacquired
        errorBytes := s.link.stats.errorBytes + Bite.drops log.bites
        validBytes := s.link.stats.validBytes + Bite.acceptedBytes log.bites
        validEnvelopes := s.link.stats.validEnvelopes + log.accepted.length } := by
  induction h with
  | start => rfl
  | step _ last ih =>
    simp only [Log.events_concat, Log.bites_concat, Log.accepted_concat, List.count_append,
      List.countP_append, Bite.drops_append, Bite.acceptedBytes_append, List.length_append,
      ← Nat.add_assoc]
    cases Step.of_step? last with
    | feed bytes =>
      rw [Link.feed_eq, ih]
      rfl
    | discard => exact ih
    | assign write => exact ih
    | cycle c t hc =>
      have hstats := congrArg Link.stats hc.link
      simp only [Link.intake, Link.eaten, Link.afterBites, ih, ← hc.count_failsafe,
        ← hc.countP_reacquired, ← hc.bites] at hstats
      exact hstats

end Run

end Site

/-! ### A small system

One envelope carries the level of a gauge in two bytes. It serves for examples.
-/

namespace Gauge

/-- The envelope's only field. -/
def level : Field := .unsigned ⟨⟨"level", true, false⟩, .two, 0, by decide⟩

/-- The envelope of the gauge, which is sent on every turn. -/
def envelope : Envelope :=
  ⟨⟨[0xAB], 1, 0, 0, by decide, by decide⟩, [.field level], .empty [.field level]⟩

/-- The envelope on its own. -/
def protocol : Protocol := ⟨[envelope]⟩

/-- Silence is reported after one second. -/
def settings : Settings := { Settings.default with failsafeAfter := some (.ofSeconds 1 0) }

/-- The link before its first cycle. -/
def link : Link :=
  { protocol, settings
    input := []
    isValid := false
    stats := ⟨0, 0, 0, 0, 0⟩
    startedAt := none
    nextOutputAt := none
    lastValidAt := none
    failsafeActive := false
    garbageSince := none
    inputNoise := none
    outputNoise := none }

/-- The link with its cell, which has no value yet. -/
def site : Site := ⟨link, Cells.empty.declare "level" .unsigned⟩

/-- An envelope that sets the level to 258. -/
def frame : Bytes := [0xAB, 2, 1]

/-- The settings are valid. -/
theorem validate_eq : settings.validate = .ok () := by
  simp only [Settings.validate, settings, Settings.default, Settings.checkProbability_zero]
  rfl

/-- The link can be set up. -/
theorem new_eq : Link.new protocol settings 0 = .ok link := by
  have hprotocol : protocol.verify = .ok () := rfl
  simp only [Link.new, Link.verify, hprotocol, validate_eq]
  rfl

end Gauge

end DataLink
