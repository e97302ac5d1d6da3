import DataLink.Proofs.Validity
import DataLink.Proofs.Schedule

/-!
# The origin of the clock

A link compares moments with each other and never with the origin of its clock. If every cycle of
a run comes later by the same delay, then all moments that the link remembers are later by that
delay, and nothing else that it does is different.
-/

namespace DataLink

namespace Duration

variable {a b c c' delay : Duration}

/-- A moment that much later. -/
def later (t delay : Duration) : Duration := ⟨t.nanos + delay.nanos⟩

/-- The time between two moments does not depend on when the clock started. -/
@[simp] theorem since_later (a b delay : Duration) :
    (a.later delay).since (b.later delay) = a.since b :=
  congrArg Duration.mk (Nat.add_sub_add_right _ _ _)

/-- Of two moments the same one is earlier when both are moved. -/
theorem later_lt_later_iff : a.later delay < b.later delay ↔ a < b :=
  Nat.add_lt_add_iff_right

/-- Of two moments the same one is no later when both are moved. -/
theorem later_le_later_iff : a.later delay ≤ b.later delay ↔ a ≤ b :=
  Nat.add_le_add_iff_right

/-- As long as nothing overflows, a span after a later moment ends later. -/
theorem add?_later (h : a.add? b = some c) (h' : (a.later delay).add? b = some c') :
    c' = c.later delay := by
  have hnanos : c.nanos = a.nanos + b.nanos := nanos_of_add? h
  have hnanos' : c'.nanos = a.nanos + delay.nanos + b.nanos := nanos_of_add? h'
  have hsum : c'.nanos = c.nanos + delay.nanos := by omega
  exact congrArg Duration.mk hsum

end Duration

/-- What is remembered of garbage is later if all of it is. -/
theorem Bite.garbageSince_later (now delay : Duration) (since : Option Duration)
    (bites : List Bite) :
    garbageSince (now.later delay) (since.map (·.later delay)) bites =
      (garbageSince now since bites).map (·.later delay) := by
  induction bites generalizing since with
  | nil => rfl
  | cons b rest ih =>
    cases b with
    | accept eaten writes => exact ih none
    | drop fault =>
      rw [garbageSince, garbageSince, ← ih]
      cases since <;> rfl

namespace Link

/-- The link with all moments that it remembers that much later. -/
def later (link : Link) (delay : Duration) : Link :=
  { link with
    startedAt := link.startedAt.map (·.later delay)
    nextOutputAt := link.nextOutputAt.map (·.later delay)
    lastValidAt := link.lastValidAt.map (·.later delay)
    garbageSince := link.garbageSince.map (·.later delay) }

variable {link : Link} {now delay : Duration}

/-- A link before its first cycle remembers no moments. -/
theorem later_eq_of_new {protocol : Protocol} {settings : Settings} {entropy : Entropy}
    (h : Link.new protocol settings entropy = .ok link) (delay : Duration) :
    link.later delay = link := by
  simp only [Link.new] at h
  obtain ⟨_, -, rfl⟩ := Packet.map_ok_iff.mp h
  rfl

/-- What is fed has nothing to do with time. -/
theorem feed_later (link : Link) (bytes : Bytes) (delay : Duration) :
    (link.later delay).feed bytes = (link.feed bytes).later delay := by
  have hnoise : (link.later delay).inputNoise = link.inputNoise := rfl
  rw [feed, feed, hnoise]
  cases link.inputNoise <;> rfl

/-- The time of the first cycle moves with the clock. -/
theorem startTime_later (link : Link) (now delay : Duration) :
    (link.later delay).startTime (now.later delay) = (link.startTime now).later delay := by
  rw [startTime, startTime, later]
  cases link.startedAt <;> rfl

/-- What a link eats does not depend on when its clock started. -/
theorem eaten_later (link : Link) (now delay : Duration) :
    (link.later delay).eaten (now.later delay) = (link.eaten now).later delay := by
  have hgarbage := Bite.garbageSince_later now delay link.garbageSince link.bites
  have hvalid : (if (Bite.accepted link.bites).isEmpty then link.lastValidAt.map (·.later delay)
      else some (now.later delay)) =
      (if (Bite.accepted link.bites).isEmpty then link.lastValidAt else some now).map
        (·.later delay) := by
    split <;> rfl
  calc
    (link.later delay).eaten (now.later delay) =
        { (link.eaten now).later delay with
          startedAt := some ((link.later delay).startTime (now.later delay))
          lastValidAt := if (Bite.accepted link.bites).isEmpty
            then link.lastValidAt.map (·.later delay) else some (now.later delay)
          garbageSince := Bite.garbageSince (now.later delay)
            (link.garbageSince.map (·.later delay)) link.bites } := rfl
    _ = (link.eaten now).later delay := by
      rw [startTime_later, hvalid, hgarbage]
      rfl

/-- Whether failsafe is due does not depend on when the clock started. -/
theorem failsafeDue_later (link : Link) (now startedAt delay : Duration) :
    (link.later delay).failsafeDue (now.later delay) (startedAt.later delay) =
      link.failsafeDue now startedAt := by
  have hsince : (now.later delay).since
      ((link.later delay).lastValidAt.getD (startedAt.later delay)) =
        now.since (link.lastValidAt.getD startedAt) := by
    rw [later]
    cases link.lastValidAt <;> simp
  rw [failsafeDue, failsafeDue, hsince]
  rfl

/-- Whether garbage has lasted too long does not depend on when the clock started. -/
theorem reacquireDue_later (link : Link) (now delay : Duration) :
    (link.later delay).reacquireDue (now.later delay) = link.reacquireDue now := by
  simp only [reacquireDue, later]
  cases link.settings.reacquireAfter <;> cases link.garbageSince <;> simp

/-- Whether failsafe is reported does not depend on when the clock started. -/
theorem fails_later (link : Link) (now delay : Duration) :
    (link.later delay).fails (now.later delay) = link.fails now := by
  rw [fails, fails, eaten_later, startTime_later, failsafeDue_later]

/-- Whether input is dropped does not depend on when the clock started. -/
theorem reacquires_later (link : Link) (now delay : Duration) :
    (link.later delay).reacquires (now.later delay) = link.reacquires now := by
  rw [reacquires, reacquires, eaten_later, reacquireDue_later]

/-- Up to the output timer, a later cycle does the same. -/
theorem intake_later (link : Link) (now delay : Duration) :
    (link.later delay).intake (now.later delay) =
      { link.intake now with link := (link.intake now).link.later delay } := by
  simp only [intake, eaten_later, fails_later, reacquires_later]
  cases link.reacquires now <;> rfl

/-- As long as nothing overflows, output is due later. -/
theorem due?_later
    (h : ∀ period, link.settings.sendPeriod = some period → ∃ due, link.due? now = some due)
    (h' : ∀ period, link.settings.sendPeriod = some period →
      ∃ due, (link.later delay).due? (now.later delay) = some due) :
    (link.later delay).due? (now.later delay) = (link.due? now).map (·.later delay) := by
  simp only [due?, startTime_later] at h h' ⊢
  have hsettings : (link.later delay).settings = link.settings := rfl
  have hnext : (link.later delay).nextOutputAt = link.nextOutputAt.map (·.later delay) := rfl
  rw [hsettings, hnext] at h' ⊢
  cases hdue : link.nextOutputAt with
  | some next => rfl
  | none =>
    cases hperiod : link.settings.sendPeriod with
    | none => rfl
    | some period =>
      rw [hdue, hperiod] at h h'
      obtain ⟨due, hadd⟩ := h period rfl
      obtain ⟨due', hadd'⟩ := h' period rfl
      have hadd : (link.startTime now).add? period = some due := hadd
      have hadd' : ((link.startTime now).later delay).add? period = some due' := hadd'
      have hlater := Duration.add?_later hadd hadd'
      simp [hadd, hadd', hlater]

/-- The time of the next output moves with the clock. -/
theorem followingOutput?_later {period due next next' : Duration}
    (h : followingOutput? period due now = some next)
    (h' : followingOutput? period (due.later delay) (now.later delay) = some next') :
    next' = next.later delay := by
  unfold followingOutput? at h h'
  split at h
  · cases h
  · next planned hplanned =>
    split at h'
    · cases h'
    · next planned' hplanned' =>
      obtain rfl := Duration.add?_later hplanned hplanned'
      by_cases hlate : planned ≤ now
      · rw [if_pos hlate] at h
        rw [if_pos (Duration.later_le_later_iff.mpr hlate)] at h'
        exact Duration.add?_later h h'
      · rw [if_neg hlate] at h
        rw [if_neg (mt Duration.later_le_later_iff.mp hlate)] at h'
        cases h
        cases h'
        rfl

/-- As long as nothing overflows, the same is sent later. -/
theorem sendOutput_later {cells : Cells} {sent sent' : List LinkEvent}
    {output output' : Option Bytes} {next next' : Link}
    (h : link.sendOutput cells now = some (next, sent, output))
    (h' : (link.later delay).sendOutput cells (now.later delay) = some (next', sent', output')) :
    next' = next.later delay ∧ sent' = sent ∧ output' = output := by
  have hsettings : (link.later delay).settings = link.settings := rfl
  have hnext : (link.later delay).nextOutputAt = link.nextOutputAt.map (·.later delay) := rfl
  simp only [sendOutput, hsettings, hnext] at h h'
  cases hperiod : link.settings.sendPeriod with
  | none =>
    simp only [hperiod] at h h'
    cases h
    cases h'
    exact ⟨rfl, rfl, rfl⟩
  | some period =>
    cases hdue : link.nextOutputAt with
    | none =>
      simp only [hperiod, hdue, Option.map_none] at h h'
      cases h
      cases h'
      exact ⟨rfl, rfl, rfl⟩
    | some due =>
      simp only [hperiod, hdue, Option.map_some, Duration.later_lt_later_iff] at h h'
      by_cases hwait : now < due
      · rw [if_pos hwait] at h h'
        cases h
        cases h'
        exact ⟨rfl, rfl, rfl⟩
      · rw [if_neg hwait] at h h'
        obtain ⟨planned, hplanned, heq⟩ := Option.map_eq_some_iff.mp h
        obtain ⟨planned', hplanned', heq'⟩ := Option.map_eq_some_iff.mp h'
        obtain rfl := followingOutput?_later hplanned hplanned'
        cases heq
        cases heq'
        exact ⟨rfl, rfl, rfl⟩

/-- As long as nothing overflows, a later cycle does the same and leaves a link behind that is
later. -/
theorem process_later {cells : Cells} {r r' : CycleResult}
    (h : link.process cells now = some r)
    (h' : (link.later delay).process cells (now.later delay) = some r') :
    r' = { r with link := r.link.later delay } := by
  obtain ⟨sent, hsend, hcells, hevents, hdue⟩ := process_eq_some h
  obtain ⟨sent', hsend', hcells', hevents', hdue'⟩ := process_eq_some h'
  rw [intake_later, due?_later hdue hdue'] at hsend'
  rw [intake_later] at hcells' hevents'
  obtain ⟨hlink, rfl, houtput⟩ := sendOutput_later hsend hsend'
  obtain ⟨link', cells', events', output'⟩ := r'
  simp only at hlink hcells' hevents' houtput
  rw [hlink, hcells', hevents', houtput, ← hcells, ← hevents]

end Link

/-! ### Runs -/

/-- An action of the surroundings that much later. -/
def Action.later (a : Action) (delay : Duration) : Action :=
  match a with
  | .cycle now => .cycle (now.later delay)
  | a => a

/-- A cycle that much later, and otherwise the same. -/
def CycleLog.later (c : CycleLog) (delay : Duration) : CycleLog :=
  { c with now := c.now.later delay }

/-- An entry of a log that much later, and otherwise the same. -/
def Entry.later (e : Entry) (delay : Duration) : Entry :=
  match e with
  | .cycled c => .cycled (c.later delay)
  | e => e

namespace Site

/-- All moments that the link remembers that much later. -/
def later (s : Site) (delay : Duration) : Site := { s with link := s.link.later delay }

variable {s t t' : Site} {actions : List Action} {log log' : Log} {delay : Duration}

/-- As long as nothing overflows, a later action does the same. -/
theorem step?_later {a : Action} {e e' : Entry} (h : s.step? a = some (e, t))
    (h' : (s.later delay).step? (a.later delay) = some (e', t')) :
    e' = e.later delay ∧ t' = t.later delay := by
  cases a with
  | feed bytes =>
    cases h
    cases h'
    exact ⟨rfl, congrArg (Site.mk · s.cells) (s.link.feed_later bytes delay)⟩
  | discard =>
    cases h
    cases h'
    exact ⟨rfl, rfl⟩
  | assign write =>
    cases h
    cases h'
    exact ⟨rfl, rfl⟩
  | cycle now =>
    obtain ⟨r, hr, heq⟩ := Option.map_eq_some_iff.mp h
    obtain ⟨r', hr', heq'⟩ := Option.map_eq_some_iff.mp h'
    cases heq
    cases heq'
    obtain rfl := Link.process_later hr hr'
    refine ⟨?_, rfl⟩
    have hwrites : ((s.link.later delay).intake (now.later delay)).writes =
        (s.link.intake now).writes := by rw [Link.intake_later]
    simp only [Entry.later, CycleLog.later, Link.cycleLog, Site.later, hwrites]
    rfl

/-- As long as nothing overflows, the same happens in a run that is later. -/
theorem Run.later (h : s.Run actions log t)
    (h' : (s.later delay).Run (actions.map (·.later delay)) log' t') :
    log' = log.map (·.later delay) ∧ t' = t.later delay := by
  induction h generalizing log' t' with
  | start => exact h'.of_nil
  | step _ last ih =>
    rw [List.map_append, List.map_singleton] at h'
    obtain ⟨before', e', u', rfl, run', last'⟩ := h'.of_concat
    obtain ⟨rfl, rfl⟩ := ih run'
    obtain ⟨rfl, rfl⟩ := step?_later last last'
    exact ⟨by rw [List.map_append, List.map_singleton], rfl⟩

end Site

/-- If every cycle of a run comes later by the same delay, and no time overflows, then action by
action the same is logged at the later times: the same bites, assignments, events, and outputs.
After so many actions, the two links have the same counters, and the cells are the same. -/
theorem clock_origin_irrelevant {protocol : Protocol} {settings : Settings} {entropy : Entropy}
    {link : Link} {cells : Cells} {actions : List Action} {log log' : Log} {t t' : Site}
    {delay : Duration} (hnew : Link.new protocol settings entropy = .ok link)
    (h : Site.Run ⟨link, cells⟩ actions log t)
    (h' : Site.Run ⟨link, cells⟩ (actions.map (·.later delay)) log' t') :
    log' = log.map (·.later delay) ∧
      ∀ count, ∃ u u', Site.Run ⟨link, cells⟩ (actions.take count) (log.take count) u ∧
        Site.Run ⟨link, cells⟩ ((actions.map (·.later delay)).take count) (log'.take count) u' ∧
        u'.link.stats = u.link.stats ∧ u'.cells = u.cells := by
  have hfixed : Site.later ⟨link, cells⟩ delay = ⟨link, cells⟩ :=
    congrArg (Site.mk · cells) (Link.later_eq_of_new hnew delay)
  rw [← hfixed] at h'
  refine ⟨(h.later h').1, fun count => ?_⟩
  obtain ⟨u, run⟩ := h.take count
  obtain ⟨u', run'⟩ := h'.take count
  rw [← List.map_take] at run'
  have hu := (run.later run').2
  rw [hfixed, List.map_take] at run'
  exact ⟨u, u', run, run', by rw [hu]; rfl, by rw [hu]; rfl⟩

namespace Gauge

/-- All timers run, each for a second. -/
def timed : Settings :=
  { secondly with
    reacquireAfter := some (.ofSeconds 1 0)
    failsafeAfter := some (.ofSeconds 1 0) }

/-- A link with all timers can be set up. -/
theorem new_timed : Link.new protocol timed 0 = .ok { link with settings := timed } := by
  have hprotocol : protocol.verify = .ok () := rfl
  have hvalid : timed.validate = .ok () := by decide +kernel
  simp only [Link.new, Link.verify, hprotocol, hvalid]
  rfl

/-- An envelope, some garbage, and then silence until every timer has run out. -/
def expiring : List Action :=
  [.feed (frame ++ [7, 0xAB]), .cycle .zero, .cycle (.ofSeconds 2 0)]

/-- What happens then: the level arrives, and after two seconds all timers go off at once. -/
def expiringLog : Log :=
  [.arrived (frame ++ [7, 0xAB]),
    .cycled
      { now := .zero
        bites := [.accept ⟨0, 3⟩ [⟨"level", some (.unsigned 258)⟩], .drop .unknownMagic]
        writes := [⟨"level", some (.unsigned 258)⟩]
        events := [.acquired]
        output := none },
    .cycled
      { now := .ofSeconds 2 0
        bites := []
        writes := [⟨"level", none⟩]
        events := [.reacquired 1, .failsafe, .sent 3]
        output := some [0xAB, 0, 0] }]

/-- The same happens an hour later. -/
theorem clock_origin_irrelevant_gauge :
    ∃ t t' log', Site.Run ⟨{ link with settings := timed }, site.cells⟩ expiring expiringLog t ∧
      Site.Run ⟨{ link with settings := timed }, site.cells⟩
        (expiring.map (·.later (.ofSeconds 3600 0))) log' t' ∧
      log' = expiringLog.map (·.later (.ofSeconds 3600 0)) := by
  have hrun : (Site.run? ⟨{ link with settings := timed }, site.cells⟩ expiring).map Prod.fst =
      some expiringLog := by decide +kernel
  have hlater : (Site.run? ⟨{ link with settings := timed }, site.cells⟩
      (expiring.map (·.later (.ofSeconds 3600 0)))).isSome = true := by decide +kernel
  obtain ⟨⟨log, t⟩, hrun, rfl⟩ := Option.map_eq_some_iff.mp hrun
  obtain ⟨⟨log', t'⟩, hlater⟩ := Option.isSome_iff_exists.mp hlater
  have hsame := clock_origin_irrelevant new_timed (Site.Run.of_run? hrun) (Site.Run.of_run? hlater)
  exact ⟨t, t', log', .of_run? hrun, .of_run? hlater, hsame.1⟩

end Gauge

end DataLink
