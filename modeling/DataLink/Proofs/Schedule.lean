import DataLink.Proofs.Turns
import Mathlib.Data.List.Chain

/-!
# The schedule of output

Output is sent once a period. A cycle that comes too late to keep the schedule does not send more
to catch up, and the schedule is then set anew from its time. Otherwise the times for output stay
on the multiples of the period since the first cycle. What arrives has no part in it.
-/

namespace DataLink

namespace Duration

/-- The nanoseconds of a sum of times add up. -/
theorem nanos_of_add? {a b c : Duration} (h : a.add? b = some c) : c.nanos = a.nanos + b.nanos := by
  simp only [add?] at h
  split at h
  · cases h
    rfl
  · cases h

end Duration

namespace Link

/-- When output is due next, after it was sent: one period later if that is still ahead, or else
one period from now. -/
theorem nanos_of_followingOutput? {period due now next : Duration}
    (h : followingOutput? period due now = some next) :
    (next.nanos = due.nanos + period.nanos ∧ now.nanos < next.nanos) ∨
      (next.nanos = now.nanos + period.nanos ∧ due.nanos + period.nanos ≤ now.nanos) := by
  unfold followingOutput? at h
  split at h
  · cases h
  · next planned hplanned =>
    have hnanos := Duration.nanos_of_add? hplanned
    split at h
    · next hlate =>
      have hle : planned.nanos ≤ now.nanos := hlate
      exact .inr ⟨Duration.nanos_of_add? h, by omega⟩
    · next hahead =>
      have hlt : ¬ planned.nanos ≤ now.nanos := hahead
      cases h
      exact .inl ⟨hnanos, by omega⟩

/-- What a cycle does about output: the events it adds, and when output is due next. -/
inductive Paces (link : Link) (now : Duration) : List LinkEvent → Option Duration → Prop where
  /-- Output is disabled or not yet due. -/
  | waits (h : ∀ period, link.settings.sendPeriod = some period →
      ∃ due, link.due? now = some due ∧ now < due) : link.Paces now [] (link.due? now)
  /-- Output is due and sent. -/
  | sends {period due next : Duration} (bytes : Nat)
      (hperiod : link.settings.sendPeriod = some period) (hdue : link.due? now = some due)
      (hle : due ≤ now) (hnext : followingOutput? period due now = some next) :
      link.Paces now [.sent bytes] (some next)

/-- After its intake a cycle sends at the pace of the link. -/
theorem paces_of_process {link : Link} {cells : Cells} {now : Duration} {r : CycleResult}
    (h : link.process cells now = some r) :
    ∃ sent, r.events = (link.intake now).events ++ sent ∧
      link.Paces now sent r.link.nextOutputAt := by
  obtain ⟨sent, hsend, -, hevents, hstarted⟩ := process_eq_some h
  refine ⟨sent, hevents, ?_⟩
  have hsettings : ((link.intake now).link.setDue (link.due? now)).settings = link.settings := rfl
  have hnext : ((link.intake now).link.setDue (link.due? now)).nextOutputAt = link.due? now := rfl
  simp only [sendOutput, hsettings, hnext] at hsend
  generalize r.link = link', r.output = output at hsend ⊢
  split at hsend
  · next period due hperiod hdue =>
    split at hsend
    · next hlt =>
      cases hsend
      rw [hnext]
      refine .waits fun _ _ => ⟨due, hdue, hlt⟩
    · next hlt =>
      obtain ⟨next, hfollowing, heq⟩ := Option.map_eq_some_iff.mp hsend
      cases heq
      exact .sends _ hperiod hdue (Nat.not_lt.mp hlt) hfollowing
  · next hother =>
    cases hsend
    rw [hnext]
    refine .waits fun period hperiod => ?_
    obtain ⟨due, hdue⟩ := hstarted period hperiod
    exact absurd hdue (hother period due hperiod)

end Link

/-- Whether the cycle reported output. -/
def CycleLog.sends (c : CycleLog) : Bool := c.events.any LinkEvent.isSent

namespace Schedule

/-- How often some cycles reported output. -/
def sent (cycles : List CycleLog) : Nat :=
  (cycles.flatMap CycleLog.events).countP LinkEvent.isSent

/-- What it means for cycles to send output on schedule, with neither bursts nor gaps nor drift. -/
structure Punctual (period : Duration) (cycles : List CycleLog) : Prop where
  /-- No cycle sends twice. -/
  single : ∀ c ∈ cycles, c.events.countP LinkEvent.isSent ≤ 1
  /-- Output is sent at most once for every period since the first cycle. -/
  rare : ∀ first before c, cycles.head? = some first → before ++ [c] <+: cycles →
    sent (before ++ [c]) * period.nanos ≤ (c.now.since first.now).nanos
  /-- Since the first cycle, or since one that sent, no cycle lets a period pass in silence. -/
  frequent : ∀ before mark between c, before ++ mark :: between ++ [c] <+: cycles →
    before = [] ∨ mark.sends = true → (∀ d ∈ between, d.sends = false) →
    mark.now.nanos + period.nanos ≤ c.now.nanos → c.sends = true
  /-- As long as cycles are at most a period apart, output is sent once for every period. -/
  steady : ∀ first before c, cycles.head? = some first → before ++ [c] <+: cycles →
    ((before ++ [c]).IsChain fun d e => e.now.since d.now ≤ period) →
    sent (before ++ [c]) = (c.now.since first.now).nanos / period.nanos

/-- Output in two stretches of cycles adds up. -/
theorem sent_append (first second : List CycleLog) :
    sent (first ++ second) = sent first + sent second := by
  rw [sent, List.flatMap_append, List.countP_append, sent, sent]

/-- The output of one cycle is counted by its events. -/
theorem sent_singleton (c : CycleLog) : sent [c] = c.events.countP LinkEvent.isSent := by
  rw [sent, List.flatMap_singleton]

/-- Nothing was sent exactly if none of the cycles sends. -/
theorem sent_eq_zero_iff {cycles : List CycleLog} :
    sent cycles = 0 ↔ ∀ c ∈ cycles, c.sends = false := by
  simp only [sent, List.countP_eq_zero, List.mem_flatMap, CycleLog.sends, List.any_eq_false]
  constructor
  · intro h c hc e he
    exact h e ⟨c, hc, he⟩
  · rintro h e ⟨c, hc, he⟩
    exact h c hc e he

/-- A cycle sent if it is not one that did not. -/
theorem sends_iff {c : CycleLog} : c.sends = true ↔ sent [c] ≠ 0 := by
  rw [Ne, sent_eq_zero_iff, List.forall_mem_singleton, Bool.not_eq_false]

/-- What a cycle does when output is due at a time, and when it is due next. -/
inductive Tick (period due : Duration) (c : CycleLog) : Duration → Prop where
  | waits (hlt : c.now < due) (hnone : sent [c] = 0) : Tick period due c due
  | sends {next : Duration} (hle : due ≤ c.now) (hone : sent [c] = 1)
      (hnext : Link.followingOutput? period due c.now = some next) : Tick period due c next

/-- Some cycles from the one at `start` on keep the schedule, which has output due next at some
time. -/
inductive Keeps (period start : Duration) : List CycleLog → Duration → Prop where
  | first {c : CycleLog} {due next : Duration} (hstart : c.now = start)
      (hdue : start.add? period = some due) (h : Tick period due c next) :
      Keeps period start [c] next
  | later {cycles : List CycleLog} {c : CycleLog} {due next : Duration}
      (h : Keeps period start cycles due) (hc : Tick period due c next) :
      Keeps period start (cycles ++ [c]) next

variable {period start due next : Duration} {c : CycleLog} {cycles before : List CycleLog}

namespace Tick

/-- All that a cycle does about the time for output, in numbers. -/
theorem nanos (h : Tick period due c next) :
    (sent [c] = 0 ∧ c.now.nanos < due.nanos ∧ next = due) ∨
      (sent [c] = 1 ∧ due.nanos ≤ c.now.nanos ∧
        ((next.nanos = due.nanos + period.nanos ∧ c.now.nanos < next.nanos) ∨
          (next.nanos = c.now.nanos + period.nanos ∧
            due.nanos + period.nanos ≤ c.now.nanos))) := by
  cases h with
  | waits hlt hnone => exact .inl ⟨hnone, hlt, rfl⟩
  | sends hle hone hnext => exact .inr ⟨hone, hle, Link.nanos_of_followingOutput? hnext⟩

/-- A cycle is over before output is due next. -/
theorem ahead (h : Tick period due c next) (hpos : 0 < period.nanos) :
    c.now.nanos < next.nanos ∧ due.nanos ≤ next.nanos := by
  rcases h.nanos with ⟨-, hlt, rfl⟩ | ⟨-, hle, hnext⟩
  · exact ⟨hlt, Nat.le_refl _⟩
  · omega

/-- From one output to the next takes a period at least. -/
theorem spaced (h : Tick period due c next) :
    due.nanos + sent [c] * period.nanos ≤ next.nanos := by
  rcases h.nanos with ⟨hnone, -, rfl⟩ | ⟨hone, hle, hnext⟩
  · rw [hnone, Nat.zero_mul, Nat.add_zero]
  · rw [hone, Nat.one_mul]
    omega

/-- It takes exactly a period if the cycle is not late by as much. -/
theorem exact (h : Tick period due c next) (hclose : c.now.nanos < due.nanos + period.nanos) :
    next.nanos = due.nanos + sent [c] * period.nanos := by
  rcases h.nanos with ⟨hnone, -, rfl⟩ | ⟨hone, -, hnext⟩
  · rw [hnone, Nat.zero_mul, Nat.add_zero]
  · rw [hone, Nat.one_mul]
    omega

/-- A cycle that sends has output due again within a period. -/
theorem prompt (h : Tick period due c next) (hsends : sent [c] ≠ 0) :
    next.nanos ≤ c.now.nanos + period.nanos := by
  rcases h.nanos with ⟨hnone, -, -⟩ | ⟨-, hle, hnext⟩
  · exact absurd hnone hsends
  · omega

/-- A cycle that does not send leaves the time for output as it is. -/
theorem eq_of_idle (h : Tick period due c next) (hidle : sent [c] = 0) : next = due := by
  rcases h.nanos with ⟨-, -, heq⟩ | ⟨hone, -, -⟩
  · exact heq
  · omega

/-- A cycle sends once at most. -/
theorem sent_le_one (h : Tick period due c next) : sent [c] ≤ 1 := by
  rcases h.nanos with ⟨hnone, -, -⟩ | ⟨hone, -, -⟩
  · omega
  · omega

/-- A cycle at which output is due sends it. -/
theorem sends_of_le (h : Tick period due c next) (hle : due.nanos ≤ c.now.nanos) :
    sent [c] = 1 := by
  rcases h.nanos with ⟨-, hlt, -⟩ | ⟨hone, -, -⟩
  · omega
  · exact hone

end Tick

namespace Keeps

/-- A kept schedule has a first cycle. -/
theorem ne_nil (h : Keeps period start cycles due) : cycles ≠ [] := by
  cases h <;> simp

/-- Before the last cycle the schedule was kept, too. -/
theorem of_concat (h : Keeps period start (cycles ++ [c]) next) (hne : cycles ≠ []) :
    ∃ due, Keeps period start cycles due ∧ Tick period due c next := by
  generalize hall : cycles ++ [c] = all at h
  cases h with
  | first hstart hdue h =>
    have hnil : cycles = [] := by
      cases cycles with
      | nil => rfl
      | cons d rest => simp at hall
    exact absurd hnil hne
  | later h hc =>
    obtain ⟨rfl, hlast⟩ := List.append_inj' hall rfl
    obtain rfl := List.singleton_inj.mp hlast
    exact ⟨_, h, hc⟩

/-- A kept schedule was kept all along. -/
theorem of_prefix (h : Keeps period start cycles due) (hpref : before <+: cycles)
    (hne : before ≠ []) : ∃ due, Keeps period start before due := by
  induction h with
  | @first c _ _ hstart hdue h =>
    have hpref : before <+: [] ++ [c] := hpref
    rcases List.prefix_concat_iff.mp hpref with rfl | hnil
    · exact ⟨_, .first hstart hdue h⟩
    · exact absurd (List.prefix_nil.mp hnil) hne
  | later h hc ih =>
    rcases List.prefix_concat_iff.mp hpref with rfl | hpref
    · exact ⟨_, .later h hc⟩
    · exact ih hpref

/-- The first cycle is the one at which the schedule starts. -/
theorem head_now (h : Keeps period start cycles due) :
    cycles.head?.map CycleLog.now = some start := by
  induction h with
  | first hstart _ _ => exact congrArg some hstart
  | later h _ ih => rw [List.head?_append_of_ne_nil _ h.ne_nil, ih]

/-- Output was sent at most once a period, and is not due before another period is over. -/
theorem spaced (h : Keeps period start cycles due) :
    start.nanos + (sent cycles + 1) * period.nanos ≤ due.nanos := by
  induction h with
  | first _ hdue h =>
    have hnanos := Duration.nanos_of_add? hdue
    have hspaced := h.spaced
    rw [Nat.add_mul, Nat.one_mul]
    omega
  | later _ hc ih =>
    have hspaced := hc.spaced
    rw [Nat.add_mul, Nat.one_mul] at ih
    rw [sent_append, Nat.add_mul, Nat.add_mul, Nat.one_mul]
    omega

/-- All cycles are over before output is due next. -/
theorem ahead (h : Keeps period start cycles due) (hpos : 0 < period.nanos) :
    ∀ c ∈ cycles, c.now.nanos < due.nanos := by
  induction h with
  | first _ _ h => simpa using (h.ahead hpos).1
  | later _ hc ih =>
    obtain ⟨hlast, hle⟩ := hc.ahead hpos
    refine List.forall_mem_append.mpr ⟨?_, by simpa using hlast⟩
    intro d hd
    exact Nat.lt_of_lt_of_le (ih d hd) hle

/-- The last output was sent no earlier than its turn. -/
theorem reached (h : Keeps period start cycles due) (hpos : 0 < period.nanos) {time : Nat}
    (hlater : ∀ c ∈ cycles, c.now.nanos ≤ time) :
    start.nanos + sent cycles * period.nanos ≤ time := by
  induction h with
  | @first c due _ hstart hdue h =>
    have hnanos := Duration.nanos_of_add? hdue
    have hnow : c.now.nanos ≤ time := hlater c List.mem_cons_self
    rw [← hstart] at hnanos ⊢
    rcases h.nanos with ⟨hnone, -, -⟩ | ⟨hone, hle, -⟩
    · rw [hnone]
      omega
    · rw [hone]
      omega
  | @later cycles c due _ h hc ih =>
    rw [List.forall_mem_append] at hlater
    have hnow : c.now.nanos ≤ time := hlater.2 c List.mem_cons_self
    rw [sent_append]
    rcases hc.nanos with ⟨hnone, -, -⟩ | ⟨hone, hle, -⟩
    · rw [hnone, Nat.add_zero]
      exact ih hlater.1
    · have hspaced := h.spaced
      rw [hone]
      omega

/-- If no cycle is more than a period after the one before, output stays on the multiples of the
period. -/
theorem exact (h : Keeps period start cycles due) (hpos : 0 < period.nanos)
    (hclose : cycles.IsChain fun c d => d.now.nanos ≤ c.now.nanos + period.nanos) :
    due.nanos = start.nanos + (sent cycles + 1) * period.nanos := by
  induction h with
  | @first c due _ hstart hdue h =>
    have hnanos := Duration.nanos_of_add? hdue
    have hexact := h.exact (by rw [hstart]; omega)
    rw [Nat.add_mul, Nat.one_mul]
    omega
  | @later cycles c due _ h hc ih =>
    obtain ⟨hbefore, -, hlink⟩ := List.isChain_append.mp hclose
    obtain ⟨last, hlast⟩ := Option.ne_none_iff_exists'.mp
      (mt List.getLast?_eq_none_iff.mp h.ne_nil)
    have hstep : c.now.nanos ≤ last.now.nanos + period.nanos := hlink last hlast c rfl
    have hahead := h.ahead hpos last (List.mem_of_getLast? hlast)
    have hexact := hc.exact (by omega)
    have hold := ih hbefore
    rw [Nat.add_mul, Nat.one_mul] at hold
    rw [sent_append, Nat.add_mul, Nat.add_mul, Nat.one_mul]
    omega

/-- Since the first cycle, or since a cycle that sent, output is due within a period. -/
theorem prompt (h : Keeps period start cycles due) (hpos : 0 < period.nanos) {mark : CycleLog}
    {between : List CycleLog} (hcycles : cycles = before ++ mark :: between)
    (hmark : before = [] ∨ sent [mark] ≠ 0) (hidle : sent between = 0) :
    due.nanos ≤ mark.now.nanos + period.nanos := by
  induction h generalizing between with
  | @first c due next hstart hdue h =>
    have hnanos := Duration.nanos_of_add? hdue
    have hmem : mark ∈ [c] := hcycles ▸ List.mem_append_right _ List.mem_cons_self
    obtain rfl := List.mem_singleton.mp hmem
    rw [← hstart] at hnanos
    rcases h.nanos with ⟨-, -, rfl⟩ | ⟨-, hle, hnext⟩
    · omega
    · omega
  | @later cycles c due next h hc ih =>
    rcases List.eq_nil_or_concat between with rfl | ⟨earlier, d, rfl⟩
    · obtain ⟨rfl, hlast⟩ := List.append_inj' hcycles rfl
      obtain rfl := List.singleton_inj.mp hlast
      exact hc.prompt (hmark.resolve_left h.ne_nil)
    · rw [List.concat_eq_append, ← List.cons_append, ← List.append_assoc] at hcycles
      obtain ⟨heq, hlast⟩ := List.append_inj' hcycles rfl
      obtain rfl := List.singleton_inj.mp hlast
      rw [List.concat_eq_append, sent_append] at hidle
      rw [hc.eq_of_idle (by omega)]
      exact ih heq (by omega)

/-- Each cycle of a kept schedule sends once at most. -/
theorem sent_le_one (h : Keeps period start cycles due) : ∀ c ∈ cycles, sent [c] ≤ 1 := by
  induction h with
  | first _ _ h => simpa using h.sent_le_one
  | later _ hc ih => exact List.forall_mem_append.mpr ⟨ih, by simpa using hc.sent_le_one⟩

/-- Cycles that keep the schedule are punctual, if they are in order. -/
theorem punctual (h : Keeps period start cycles due) (hpos : 0 < period.nanos)
    (horder : cycles.Pairwise fun c d => c.now ≤ d.now) : Punctual period cycles := by
  have hstart {first : CycleLog} (hfirst : cycles.head? = some first) : first.now = start := by
    have hnow := h.head_now
    rw [hfirst] at hnow
    exact Option.some.inj hnow
  -- Of cycles in order, none is later than the last one.
  have hlatest {before : List CycleLog} {c : CycleLog} (hpref : before ++ [c] <+: cycles) :
      ∀ d ∈ before ++ [c], d.now.nanos ≤ c.now.nanos := by
    have hbefore := (List.pairwise_append.mp (horder.sublist hpref.sublist)).2.2
    refine List.forall_mem_append.mpr ⟨?_, by simp⟩
    intro d hd
    exact hbefore d hd c List.mem_cons_self
  constructor
  · intro c hc
    rw [← sent_singleton]
    exact h.sent_le_one c hc
  · intro first before c hfirst hpref
    obtain ⟨_, hkeeps⟩ := h.of_prefix hpref (by simp)
    have hreached := hkeeps.reached hpos (hlatest hpref)
    rw [hstart hfirst]
    simp only [Duration.since]
    omega
  · intro before mark between c hpref hmark hidle hlate
    obtain ⟨_, hkeeps⟩ := h.of_prefix hpref (by simp)
    obtain ⟨due, hbefore, htick⟩ := hkeeps.of_concat (by simp)
    have hprompt := hbefore.prompt hpos rfl (hmark.imp_right sends_iff.mp)
      (sent_eq_zero_iff.mpr hidle)
    rw [sends_iff, htick.sends_of_le (by omega)]
    exact Nat.one_ne_zero
  · intro first before c hfirst hpref hclose
    obtain ⟨due, hkeeps⟩ := h.of_prefix hpref (by simp)
    have hreached := hkeeps.reached hpos (hlatest hpref)
    have hahead := hkeeps.ahead hpos c (by simp)
    have hexact := hkeeps.exact hpos (hclose.imp fun d e hle => by
      have hle : e.now.nanos - d.now.nanos ≤ period.nanos := hle
      omega)
    rw [hstart hfirst]
    rw [hexact] at hahead
    symm
    refine Nat.div_eq_of_lt_le ?_ ?_
    · simp only [Duration.since]
      omega
    · simp only [Duration.since]
      omega

end Keeps

end Schedule

/-! ### Output of a run -/

/-- A cycle with output due at a time does what the schedule asks for. -/
theorem Link.tick_of_process {link : Link} {cells : Cells} {now : Duration} {r : CycleResult}
    {period due : Duration} (h : link.process cells now = some r)
    (hperiod : link.settings.sendPeriod = some period) (hdue : link.due? now = some due) :
    ∃ next, r.link.nextOutputAt = some next ∧
      Schedule.Tick period due (link.cycleLog now r) next := by
  obtain ⟨sent, hevents, hpaces⟩ := paces_of_process h
  have hintake : (link.intake now).events.countP LinkEvent.isSent = 0 := by
    rw [countP_intake]
    simp [LinkEvent.isSent]
  have hcount : Schedule.sent [link.cycleLog now r] = sent.countP LinkEvent.isSent := by
    rw [Schedule.sent_singleton, cycleLog, hevents, List.countP_append, hintake, Nat.zero_add]
  generalize r.link.nextOutputAt = next at hpaces ⊢
  cases hpaces with
  | waits h =>
    obtain ⟨due', hdue', hlt⟩ := h period hperiod
    obtain rfl := Option.some.inj (hdue.symm.trans hdue')
    exact ⟨due, hdue, .waits hlt hcount⟩
  | @sends period' due' next bytes hperiod' hdue' hle hnext =>
    obtain rfl := Option.some.inj (hdue.symm.trans hdue')
    obtain rfl := Option.some.inj (hperiod.symm.trans hperiod')
    exact ⟨next, rfl, .sends hle hcount hnext⟩

/-- However a link is run, from its first cycle on it keeps the schedule. -/
theorem Site.Run.keeps {s t : Site} {actions : List Action} {log : Log} {period : Duration}
    (h : s.Run actions log t) (hperiod : s.link.settings.sendPeriod = some period)
    (hstarted : s.link.startedAt = none) (hidle : s.link.nextOutputAt = none) :
    (log.cycles = [] ∧ t.link.startedAt = none ∧ t.link.nextOutputAt = none) ∨
      ∃ start due, t.link.nextOutputAt = some due ∧
        Schedule.Keeps period start log.cycles due := by
  induction h with
  | start => exact .inl ⟨rfl, hstarted, hidle⟩
  | @step actions log t u a e run last ih =>
    rw [Log.cycles_concat]
    cases a with
    | feed bytes =>
      cases last
      rw [Link.feed_eq]
      simpa using ih
    | discard =>
      cases last
      simpa [Link.discardInput] using ih
    | assign write =>
      cases last
      simpa using ih
    | cycle now =>
      obtain ⟨r, hr, heq⟩ := Option.map_eq_some_iff.mp last
      cases heq
      have hperiod' : t.link.settings.sendPeriod = some period := by rw [run.settings, hperiod]
      right
      rcases ih with ⟨hnone, hstarted, hidle⟩ | ⟨start, due, hdue, hkeeps⟩
      · have hstart : t.link.startTime now = now := by rw [Link.startTime, hstarted]; rfl
        obtain ⟨-, -, -, -, hrepresentable⟩ := Link.process_eq_some hr
        obtain ⟨due, hdue⟩ := hrepresentable period hperiod'
        obtain ⟨next, hnext, htick⟩ := Link.tick_of_process hr hperiod' hdue
        rw [Link.due?, hidle, hperiod', Option.none_or, Option.bind_some, hstart] at hdue
        rw [hnone]
        exact ⟨now, next, hnext, .first rfl hdue htick⟩
      · have hdue' : t.link.due? now = some due := by rw [Link.due?, hdue, Option.some_or]
        obtain ⟨next, hnext, htick⟩ := Link.tick_of_process hr hperiod' hdue'
        exact ⟨start, next, hnext, .later hkeeps htick⟩

/-- A link that sends output sends it on schedule, whatever arrives, as long as its cycles are in
order. -/
theorem output_on_schedule {protocol : Protocol} {settings : Settings} {entropy : Entropy}
    {link : Link} {cells : Cells} {actions : List Action} {log : Log} {t : Site}
    {period : Duration} (hnew : Link.new protocol settings entropy = .ok link)
    (hperiod : settings.sendPeriod = some period) (hpos : .zero < period)
    (h : Site.Run ⟨link, cells⟩ actions log t)
    (horder : log.cycles.Pairwise fun c d => c.now ≤ d.now) :
    Schedule.Punctual period log.cycles := by
  have hfresh := Link.Fresh.of_new hnew
  have hsends : link.settings.sendPeriod = some period := by rw [hfresh.settings, hperiod]
  rcases h.keeps hsends hfresh.startedAt hfresh.nextOutputAt with
    ⟨hnone, -, -⟩ | ⟨start, due, -, hkeeps⟩
  · rw [hnone]
    constructor <;> simp
  · exact hkeeps.punctual hpos horder

namespace Gauge

/-- Output is sent once a second. -/
def secondly : Settings := { Settings.default with sendFrequency := some .one }

/-- A link that sends once a second can be set up. -/
theorem new_secondly : Link.new protocol secondly 0 = .ok { link with settings := secondly } := by
  have hprotocol : protocol.verify = .ok () := rfl
  have hvalid : secondly.validate = .ok () := by decide +kernel
  simp only [Link.new, Link.verify, hprotocol, hvalid]
  rfl

/-- Cycles at most a second apart, and one after a stall. -/
def stalling : List Action :=
  [.cycle .zero, .cycle (.ofMillis 700), .cycle (.ofMillis 1400), .cycle (.ofMillis 2100),
    .cycle (.ofMillis 5500)]

/-- A cycle in which nothing happens. -/
def idleCycle (now : Duration) : CycleLog := ⟨now, [], [], [], none⟩

/-- A cycle in which the envelope is sent for a cell without a value. -/
def sendingCycle (now : Duration) : CycleLog :=
  ⟨now, [], [], [.sent 3], some [0xAB, 0, 0]⟩

/-- What happens in these cycles: the third one is the first to send, and only one sends after the
stall. -/
def stallingLog : Log :=
  [.cycled (idleCycle .zero), .cycled (idleCycle (.ofMillis 700)),
    .cycled (sendingCycle (.ofMillis 1400)), .cycled (sendingCycle (.ofMillis 2100)),
    .cycled (sendingCycle (.ofMillis 5500))]

/-- Output is sent for the first and the second second, and once after the stall. -/
theorem output_on_schedule_gauge :
    secondly.sendPeriod = some (.ofSeconds 1 0) ∧
      ∃ t, Site.Run ⟨{ link with settings := secondly }, site.cells⟩ stalling stallingLog t ∧
        Schedule.Punctual (.ofSeconds 1 0) stallingLog.cycles ∧
        Schedule.sent (stallingLog.cycles.take 4) = 2 ∧ Schedule.sent stallingLog.cycles = 3 := by
  have hperiod : secondly.sendPeriod = some (.ofSeconds 1 0) := by decide +kernel
  have hrun : (Site.run? ⟨{ link with settings := secondly }, site.cells⟩ stalling).map Prod.fst =
      some stallingLog := by decide +kernel
  obtain ⟨⟨log, t⟩, hrun, rfl⟩ := Option.map_eq_some_iff.mp hrun
  refine ⟨hperiod, t, .of_run? hrun, ?_, by decide, by decide⟩
  exact output_on_schedule new_secondly hperiod (by decide) (Site.Run.of_run? hrun) (by decide)

end Gauge

end DataLink
