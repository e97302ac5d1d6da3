import DataLink.Proofs.Run
import Mathlib.Data.List.Induction

/-!
# Silence

Failsafe is reported when no envelope was accepted for too long. Whether a cycle reports it
is a matter of history: of the times of the cycles, and of which of them accepted an envelope
or reported failsafe before. Garbage and dropped input have no part in it.
-/

namespace DataLink

namespace CycleLog

/-- Whether the cycle accepted an envelope. -/
def hears (c : CycleLog) : Bool := !(Bite.accepted c.bites).isEmpty

/-- Whether the cycle reported failsafe. -/
def alarms (c : CycleLog) : Bool := c.events.contains .failsafe

/-- When the cycle was, and whether it accepted an envelope. -/
def beat (c : CycleLog) : Duration × Bool := (c.now, c.hears)

/-- A cycle alarms exactly if failsafe is among its events. -/
theorem alarms_iff {c : CycleLog} : c.alarms = true ↔ .failsafe ∈ c.events := List.contains_iff_mem

end CycleLog

namespace Silence

/-- When silence began: at the last cycle that accepted an envelope, or else at the first
cycle. -/
def start? (cycles : List CycleLog) : Option Duration :=
  ((cycles.reverse.find? CycleLog.hears).or cycles.head?).map CycleLog.now

/-- The cycles since the last one that accepted an envelope, latest first. -/
def quiet (cycles : List CycleLog) : List CycleLog :=
  cycles.reverse.takeWhile fun c => !c.hears

/-- A cycle that follows some others finds that silence has lasted for longer than is allowed.
Since silence began, none of them has reported it. -/
def Due (allowed : Option Duration) (before : List CycleLog) (c : CycleLog) : Prop :=
  ∃ a s, allowed = some a ∧ start? (before ++ [c]) = some s ∧ a < c.now.since s ∧
    (c.hears = false → ∀ d ∈ quiet before, .failsafe ∉ d.events)

/-- Silence begins anew with a cycle that accepts an envelope, and not with others. -/
theorem start?_concat (before : List CycleLog) (c : CycleLog) :
    start? (before ++ [c]) =
      some (if c.hears then c.now else (start? before).getD c.now) := by
  rw [start?, List.reverse_append, List.reverse_singleton, List.singleton_append, List.find?_cons]
  cases hc : c.hears with
  | true => rfl
  | false =>
    cases before with
    | nil => rfl
    | cons first rest =>
      simp only [start?, List.cons_append, List.head?_cons, Bool.false_eq_true, if_false]
      cases (first :: rest).reverse.find? CycleLog.hears <;> rfl

/-- A cycle that accepts an envelope ends the quiet, and every other one prolongs it. -/
theorem quiet_concat (before : List CycleLog) (c : CycleLog) :
    quiet (before ++ [c]) = if c.hears then [] else c :: quiet before := by
  rw [quiet, List.reverse_append, List.reverse_singleton, List.singleton_append,
    List.takeWhile_cons]
  cases c.hears <;> rfl

/-- What a link remembers of the cycles so far. -/
structure Remembered (cycles : List CycleLog) (link : Link) : Prop where
  start : start? cycles = link.lastValidAt.or link.startedAt
  reported : link.failsafeActive = (quiet cycles).any CycleLog.alarms

/-- A fresh link has nothing to remember. -/
theorem Remembered.of_fresh {link : Link} {protocol : Protocol} {settings : Settings}
    (h : link.Fresh protocol settings) : Remembered [] link := by
  constructor
  · rw [h.lastValidAt, h.startedAt]
    rfl
  · rw [h.failsafeActive]
    rfl

variable {before cycles : List CycleLog} {c : CycleLog} {s t : Site}

/-- What a link remembers tells it since when there has been silence. -/
theorem start?_of_remembered (h : Remembered before s.link) (hc : s.Cycles c t) :
    start? (before ++ [c]) =
      some ((s.link.eaten c.now).lastValidAt.getD (s.link.startTime c.now)) := by
  rw [start?_concat, h.start]
  simp only [Link.eaten, Link.afterBites, Link.startTime, ← hc.bites]
  cases hheard : (Bite.accepted c.bites).isEmpty with
  | true =>
    rw [CycleLog.hears, hheard, Bool.not_true, if_neg Bool.false_ne_true, if_pos rfl]
    cases s.link.lastValidAt <;> rfl
  | false => rw [CycleLog.hears, hheard, Bool.not_false, if_pos rfl, if_neg Bool.false_ne_true,
      Option.getD_some]

/-- A link that remembers reports failsafe when it is due. -/
theorem fails_iff_of_remembered (h : Remembered before s.link) (hc : s.Cycles c t) :
    s.link.fails c.now = true ↔ Due s.link.settings.failsafeAfter before c := by
  have hreported : (s.link.eaten c.now).failsafeActive = false ↔
      (c.hears = false → ∀ d ∈ quiet before, .failsafe ∉ d.events) := by
    simp only [Link.eaten, Link.afterBites, h.reported, ← hc.bites, Bool.and_eq_false_imp,
      CycleLog.hears, Bool.not_eq_false', List.any_eq_true, ← CycleLog.alarms_iff]
    grind
  unfold Due
  rw [start?_of_remembered h hc, Link.fails, Link.failsafeDue]
  have hsettings : (s.link.eaten c.now).settings = s.link.settings := rfl
  rw [hsettings]
  cases s.link.settings.failsafeAfter with
  | none => simp
  | some a =>
    simp only [Bool.and_eq_true, Bool.not_eq_true', decide_eq_true_eq, hreported,
      Option.some.injEq]
    constructor
    · rintro ⟨hquiet, hlong⟩
      exact ⟨a, _, rfl, rfl, hlong, hquiet⟩
    · rintro ⟨_, _, rfl, rfl, hlong, hquiet⟩
      exact ⟨hquiet, hlong⟩

/-- A cycle that accepts an envelope does not report failsafe. -/
theorem not_fails_of_hears (hc : s.Cycles c t) (hheard : c.hears = true) :
    s.link.fails c.now = false := by
  apply Link.fails_of_accepted
  rw [CycleLog.hears, hc.bites, Bool.not_eq_true'] at hheard
  exact List.isEmpty_eq_false_iff.mp hheard

/-- A cycle keeps what the link remembers up to date. -/
theorem Remembered.cycle (h : Remembered before s.link) (hc : s.Cycles c t) :
    Remembered (before ++ [c]) t.link := by
  rw [hc.link]
  constructor
  · rw [start?_of_remembered h hc]
    simp only [Link.intake, Link.eaten, Link.afterBites]
    cases (if (Bite.accepted s.link.bites).isEmpty = true then s.link.lastValidAt
      else some c.now) <;> rfl
  · have halarm : c.alarms = s.link.fails c.now := by
      rw [Bool.eq_iff_iff, CycleLog.alarms_iff, hc.failsafe_mem_iff]
    simp only [Link.intake, Link.eaten, Link.afterBites, h.reported, ← hc.bites, quiet_concat]
    cases hheard : (Bite.accepted c.bites).isEmpty with
    | true =>
      rw [CycleLog.hears, hheard, Bool.not_true, if_neg Bool.false_ne_true, List.any_cons,
        halarm, Bool.and_true, Bool.or_comm]
    | false =>
      have hhears : c.hears = true := by rw [CycleLog.hears, hheard, Bool.not_false]
      rw [hhears, if_pos rfl, not_fails_of_hears hc hhears, Bool.and_false, Bool.or_false,
        List.any_nil]

/-- Silence begins at a time that only the beat of the cycles determines. -/
theorem start?_congr {other : List CycleLog}
    (hbeat : before.map CycleLog.beat = other.map CycleLog.beat) : start? before = start? other := by
  have hstart (cycles : List CycleLog) : start? cycles =
      (((cycles.map CycleLog.beat).reverse.find? Prod.snd).or
        (cycles.map CycleLog.beat).head?).map Prod.fst := by
    rw [← List.map_reverse, List.find?_map, List.head?_map, ← Option.map_or, Option.map_map]
    rfl
  rw [hstart, hstart, hbeat]

/-- Whether silence was reported is a matter of the beat and of earlier reports. -/
theorem any_quiet_congr {other : List CycleLog}
    (hbeat : before.map CycleLog.beat = other.map CycleLog.beat)
    (halarms : before.map CycleLog.alarms = other.map CycleLog.alarms) :
    (quiet before).any CycleLog.alarms = (quiet other).any CycleLog.alarms := by
  have hquiet (cycles : List CycleLog) : (quiet cycles).any CycleLog.alarms =
      (((cycles.map CycleLog.beat).zip (cycles.map CycleLog.alarms)).reverse.takeWhile
        fun b => !b.1.2).any Prod.snd := by
    rw [List.zip_map', ← List.map_reverse, List.takeWhile_map, List.any_map]
    rfl
  rw [hquiet, hquiet, hbeat, halarms]

/-- Whether failsafe is due depends on when the cycles were, on which of them accepted envelopes,
and on which reported failsafe. -/
theorem due_congr {allowed : Option Duration} {other : List CycleLog} {d : CycleLog}
    (hbeat : before.map CycleLog.beat = other.map CycleLog.beat)
    (halarms : before.map CycleLog.alarms = other.map CycleLog.alarms)
    (hlast : c.beat = d.beat) : Due allowed before c ↔ Due allowed other d := by
  have hstart : start? (before ++ [c]) = start? (other ++ [d]) :=
    start?_congr (by simp only [List.map_append, List.map_cons, List.map_nil, hbeat, hlast])
  have hquiet (cycles : List CycleLog) :
      (∀ c ∈ quiet cycles, .failsafe ∉ c.events) ↔ (quiet cycles).any CycleLog.alarms = false := by
    simp only [List.any_eq_false, CycleLog.alarms_iff]
  obtain ⟨hnow, hhears⟩ := Prod.mk.inj hlast
  unfold Due
  rw [hstart, hnow, hhears, hquiet, hquiet, any_quiet_congr hbeat halarms]

/-- Histories of one beat, in which failsafe is reported when due, report it alike. -/
theorem alarms_determined {allowed : Option Duration} {other : List CycleLog}
    (h : ∀ before c, before ++ [c] <+: cycles →
      (.failsafe ∈ c.events ↔ Due allowed before c))
    (h' : ∀ before c, before ++ [c] <+: other →
      (.failsafe ∈ c.events ↔ Due allowed before c))
    (hbeat : cycles.map CycleLog.beat = other.map CycleLog.beat) :
    cycles.map CycleLog.alarms = other.map CycleLog.alarms := by
  induction cycles using List.reverseRecOn generalizing other with
  | nil =>
    obtain rfl := List.map_eq_nil_iff.mp hbeat.symm
    rfl
  | append_singleton before c ih =>
    rw [List.map_append] at hbeat
    obtain ⟨earlier, last, rfl, hearlier, hlast⟩ := List.map_eq_append_iff.mp hbeat.symm
    obtain ⟨d, rfl, hd⟩ := List.map_eq_singleton_iff.mp hlast
    have halarms := ih (fun b e hb => h b e (hb.trans (List.prefix_append _ _)))
      (fun b e hb => h' b e (hb.trans (List.prefix_append _ _))) hearlier.symm
    have hlast : c.alarms = d.alarms := by
      rw [Bool.eq_iff_iff, CycleLog.alarms_iff, CycleLog.alarms_iff,
        h before c (List.prefix_refl _), h' earlier d (List.prefix_refl _)]
      exact due_congr hearlier.symm halarms hd.symm
    simp only [List.map_append, List.map_cons, List.map_nil, halarms, hlast]

end Silence

/-- However a link is run, it remembers the cycles so far. -/
theorem Site.Run.remembered {s t : Site} {actions : List Action} {log : Log}
    (h : s.Run actions log t) (hstart : Silence.Remembered [] s.link) :
    Silence.Remembered log.cycles t.link := by
  apply h.of_cycles hstart
  · intro cycles link input inputNoise hlink
    exact ⟨hlink.start, hlink.reported⟩
  · intro before c u v hc hlink
    exact hlink.cycle hc

/-- Every cycle of a run reports failsafe exactly when it is due. -/
theorem Site.Run.failsafe_iff_due {s t : Site} {actions : List Action} {log : Log}
    (h : s.Run actions log t) (hstart : Silence.Remembered [] s.link) {before : List CycleLog}
    {c : CycleLog} (hpref : before ++ [c] <+: log.cycles) :
    .failsafe ∈ c.events ↔ Silence.Due s.link.settings.failsafeAfter before c := by
  induction h with
  | start => simp [Log.cycles] at hpref
  | step run last ih =>
    rw [Log.cycles_concat] at hpref
    cases Step.of_step? last with
    | feed bytes => exact ih (by simpa using hpref)
    | discard => exact ih (by simpa using hpref)
    | assign write => exact ih (by simpa using hpref)
    | cycle d u hd =>
      rcases List.prefix_concat_iff.mp hpref with hwhole | hpref
      · obtain ⟨rfl, hlast⟩ := List.append_inj' hwhole rfl
        obtain rfl := List.singleton_inj.mp hlast
        rw [hd.failsafe_mem_iff, Silence.fails_iff_of_remembered (run.remembered hstart) hd,
          run.settings]
      · exact ih hpref

/-- No cycle reports failsafe twice. -/
theorem Site.Run.count_failsafe_le {s t : Site} {actions : List Action} {log : Log}
    (h : s.Run actions log t) : ∀ c ∈ log.cycles, c.events.count .failsafe ≤ 1 := by
  induction h with
  | start => simp [Log.cycles]
  | step _ last ih =>
    rw [Log.cycles_concat, List.forall_mem_append]
    refine ⟨ih, ?_⟩
    cases Step.of_step? last with
    | feed bytes => simp
    | discard => simp
    | assign write => simp
    | cycle c u hc =>
      intro d hd
      obtain rfl := List.mem_singleton.mp hd
      rw [hc.count_failsafe]
      exact Bool.toNat_le _

/-- Failsafe is reported once in every silence that lasts for too long, by the first cycle to
find it, and the counter counts the reports. Whatever else happens, cycles of one beat report
it alike. -/
theorem failsafe_once_per_silence {protocol : Protocol} {settings : Settings} {entropy : Entropy}
    {link : Link} {cells : Cells} {actions : List Action} {log : Log} {t : Site}
    (hnew : Link.new protocol settings entropy = .ok link)
    (h : Site.Run ⟨link, cells⟩ actions log t) :
    (∀ before c, before ++ [c] <+: log.cycles →
      (.failsafe ∈ c.events ↔ Silence.Due settings.failsafeAfter before c)) ∧
    (∀ c ∈ log.cycles, c.events.count .failsafe ≤ 1) ∧
    log.events.count .failsafe = t.link.stats.failsafes ∧
    (∀ protocol' settings' entropy' link' cells' actions' log' t',
      Link.new protocol' settings' entropy' = .ok link' →
      Site.Run ⟨link', cells'⟩ actions' log' t' →
      settings'.failsafeAfter = settings.failsafeAfter →
      log'.cycles.map CycleLog.beat = log.cycles.map CycleLog.beat →
      log'.cycles.map CycleLog.alarms = log.cycles.map CycleLog.alarms) := by
  have hdue {protocol' settings' entropy' link' cells' actions' log' t'}
      (hnew' : Link.new protocol' settings' entropy' = .ok link')
      (hrun : Site.Run ⟨link', cells'⟩ actions' log' t') (before : List CycleLog) (c : CycleLog)
      (hpref : before ++ [c] <+: log'.cycles) :
      .failsafe ∈ c.events ↔ Silence.Due settings'.failsafeAfter before c := by
    have hfresh := Link.Fresh.of_new hnew'
    have hdue := hrun.failsafe_iff_due (.of_fresh hfresh) hpref
    rwa [hfresh.settings] at hdue
  refine ⟨hdue hnew h, h.count_failsafe_le, ?_, ?_⟩
  · rw [h.stats, (Link.Fresh.of_new hnew).stats, Nat.zero_add]
  · intro protocol' settings' entropy' link' cells' actions' log' t' hnew' h' hafter hbeat
    have hdue' := hdue hnew' h'
    rw [hafter] at hdue'
    exact Silence.alarms_determined hdue' (hdue hnew h) hbeat

namespace Gauge

/-- The gauge falls silent for two seconds. -/
def silentLog : Log :=
  [.cycled ⟨.zero, [], [], [], none⟩, .cycled ⟨.ofSeconds 1 0, [], [], [], none⟩,
    .cycled ⟨.ofSeconds 2 0, [], [⟨"level", none⟩], [.failsafe], none⟩]

/-- The third cycle is the first to find it. -/
theorem failsafe_once_per_silence_gauge :
    ∃ t, site.Run [.cycle .zero, .cycle (.ofSeconds 1 0), .cycle (.ofSeconds 2 0)] silentLog t ∧
      silentLog.events.count .failsafe = t.link.stats.failsafes ∧
      ∀ before c, before ++ [c] <+: silentLog.cycles →
        (.failsafe ∈ c.events ↔ Silence.Due settings.failsafeAfter before c) := by
  have hrun : ∃ t, site.run?
      [.cycle .zero, .cycle (.ofSeconds 1 0), .cycle (.ofSeconds 2 0)] = some (silentLog, t) :=
    ⟨_, rfl⟩
  obtain ⟨t, hrun⟩ := hrun
  obtain ⟨hdue, -, hcount, -⟩ := failsafe_once_per_silence new_eq (Site.Run.of_run? hrun)
  exact ⟨t, .of_run? hrun, hcount, hdue⟩

end Gauge

end DataLink
