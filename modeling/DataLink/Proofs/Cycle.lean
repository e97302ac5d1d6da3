import DataLink.Proofs.EatLoop

/-!
# What a cycle does

A cycle is the closed form of eating, followed by the three timers, each of which touches a
few fields only.
-/

namespace DataLink

/-- What a cycle does before it looks at the output timer. -/
structure Intake where
  link : Link
  /-- What is assigned to cells, in order. -/
  writes : List Assignment
  events : List LinkEvent

namespace Link

/-- The time of the first cycle, which is the present one if there was none before. -/
def startTime (link : Link) (now : Duration) : Duration := link.startedAt.getD now

/-- The link after it has eaten in a cycle. -/
def eaten (link : Link) (now : Duration) : Link :=
  ({ link with startedAt := some (link.startTime now) }).afterBites now link.chewed.1 link.bites

/-- Whether a cycle reports failsafe. -/
def fails (link : Link) (now : Duration) : Bool :=
  (link.eaten now).failsafeDue now (link.startTime now)

/-- Whether a cycle drops what it could not eat. -/
def reacquires (link : Link) (now : Duration) : Bool := (link.eaten now).reacquireDue now

/-- A cycle up to the output timer, in closed form. -/
def intake (link : Link) (now : Duration) : Intake :=
  let eaten := link.eaten now
  { link :=
      { eaten with
        input := if link.reacquires now then [] else eaten.input
        isValid := eaten.isValid && !link.fails now
        stats :=
          { eaten.stats with
            failsafes := eaten.stats.failsafes + (link.fails now).toNat
            reacquires := eaten.stats.reacquires + (link.reacquires now).toNat }
        failsafeActive := eaten.failsafeActive || link.fails now
        garbageSince := if link.reacquires now then none else eaten.garbageSince }
    writes := link.bites.flatMap Bite.writes ++
      if link.fails now then link.chewed.1.clearings else []
    events := (if link.acquires link.bites then [.acquired] else []) ++
      (if link.reacquires now then [.reacquired eaten.input.length] else []) ++
      if link.fails now then [.failsafe] else [] }

/-- Without a timer for silence, no cycle reports failsafe. -/
theorem fails_of_none {link : Link} (h : link.settings.failsafeAfter = none) (now : Duration) :
    link.fails now = false := by
  have hsettings : (link.eaten now).settings.failsafeAfter = none := h
  simp only [fails, failsafeDue, hsettings]

/-- There is no silence to report in a cycle that accepts an envelope. -/
theorem fails_of_accepted {link : Link} (h : Bite.accepted link.bites ≠ []) (now : Duration) :
    link.fails now = false := by
  have hsome : (Bite.accepted link.bites).isEmpty = false := List.isEmpty_eq_false_iff.mpr h
  have hvalid : (link.eaten now).lastValidAt = some now := by
    simp only [eaten, afterBites, hsome, Bool.false_eq_true, if_false]
  have hnow (after : Duration) : ¬ after < now.since now := by
    intro hlt
    have hnanos : after.nanos < now.nanos - now.nanos := hlt
    omega
  unfold fails failsafeDue
  rw [hvalid]
  split
  · simp only [Option.getD_some, hnow, decide_false, Bool.and_false]
  · rfl

/-- Without a timer for garbage, no cycle drops what it could not eat. -/
theorem reacquires_of_none {link : Link} (h : link.settings.reacquireAfter = none)
    (now : Duration) : link.reacquires now = false := by
  have hsettings : (link.eaten now).settings.reacquireAfter = none := h
  simp only [reacquires, reacquireDue, hsettings]

/-- Without garbage nothing lasts too long. -/
theorem reacquireDue_of_none {link : Link} (h : link.garbageSince = none) (now : Duration) :
    link.reacquireDue now = false := by
  unfold reacquireDue
  rw [h]
  split
  · next hsome => cases hsome
  · rfl

/-- Nor does a cycle that leaves no garbage behind. -/
theorem reacquires_of_no_garbage {link : Link} {now : Duration}
    (h : (link.eaten now).garbageSince = none) : link.reacquires now = false :=
  reacquireDue_of_none h now

/-- The link with another time for its next output. -/
def setDue (link : Link) (due : Option Duration) : Link := { link with nextOutputAt := due }

/-- When output is due next, once the timers are started. -/
def due? (link : Link) (now : Duration) : Option Duration :=
  link.nextOutputAt.or (link.settings.sendPeriod.bind (link.startTime now).add?)

/-- Whether the timers can be started: the first time for output has to be representable. -/
def starts (link : Link) (now : Duration) : Bool :=
  link.settings.sendPeriod.isNone || (link.due? now).isSome

/-- A cycle starts exactly if the first output has a time, where output is wanted. -/
theorem starts_iff {link : Link} {now : Duration} :
    link.starts now = true ↔
      ∀ period, link.settings.sendPeriod = some period → ∃ due, link.due? now = some due := by
  cases hperiod : link.settings.sendPeriod with
  | none => simp [starts, hperiod]
  | some period => simp [starts, hperiod, Option.isSome_iff_exists]

/-- Starting the timers sets the time of the first cycle and the first time for output. -/
theorem start?_eq (link : Link) (now : Duration) :
    link.start? now =
      if link.starts now then
        some (({ link with startedAt := some (link.startTime now) }).setDue (link.due? now),
          link.startTime now)
      else none := by
  cases hnext : link.nextOutputAt with
  | some next =>
    have hdue : link.due? now = some next := by rw [due?, hnext, Option.some_or]
    rw [starts, hdue, Option.isSome_some, Bool.or_true, if_pos rfl, ← hnext]
    simp only [start?, hnext]
    rfl
  | none =>
    cases hperiod : link.settings.sendPeriod with
    | none =>
      have hdue : link.due? now = none := by rw [due?, hnext, hperiod]; rfl
      rw [starts, hperiod, hdue, Option.isNone_none, Bool.true_or, if_pos rfl, ← hnext]
      simp only [start?, hnext, hperiod]
      rfl
    | some period =>
      have hdue : link.due? now = (link.startTime now).add? period := by
        rw [due?, hnext, hperiod, Option.none_or, Option.bind_some]
      have hsum : (link.startedAt.getD now).add? period = link.due? now := hdue.symm
      cases hfirst : link.due? now with
      | none => simp [start?, starts, hnext, hperiod, hsum, hfirst]
      | some due => simp [start?, starts, hnext, hperiod, hsum, hfirst, startTime, setDue]

/-- A cycle that starts notes when the first one was, and when output is due. -/
theorem start?_eq_some {link started : Link} {now startedAt : Duration}
    (h : link.start? now = some (started, startedAt)) :
    startedAt = link.startTime now ∧
      started = ({ link with startedAt := some (link.startTime now) }).setDue (link.due? now) ∧
      ∀ period, link.settings.sendPeriod = some period → ∃ due, link.due? now = some due := by
  rw [start?_eq] at h
  split at h
  · next hstarts =>
    cases h
    exact ⟨rfl, rfl, starts_iff.mp hstarts⟩
  · cases h

/-- Output changes the cadences and nonces, the interference and the output timer only. -/
theorem sendOutput_eq_some {link link' : Link} {cells : Cells} {now : Duration}
    {sent : List LinkEvent} {output : Option Bytes}
    (h : link.sendOutput cells now = some (link', sent, output)) :
    link' = { link with
        protocol := link'.protocol, outputNoise := link'.outputNoise,
        nextOutputAt := link'.nextOutputAt } ∧
      link'.protocol.readers = link.protocol.readers ∧ ∀ e ∈ sent, ∃ n, e = .sent n := by
  simp only [sendOutput] at h
  split at h
  · split at h
    · cases h
      exact ⟨rfl, rfl, by simp⟩
    · obtain ⟨next, -, hnext⟩ := Option.map_eq_some_iff.mp h
      cases hnext
      exact ⟨rfl, Protocol.readers_advance _, by simp⟩
  · cases h
    exact ⟨rfl, rfl, by simp⟩

/-- Input is dropped when garbage has lasted for too long, and nothing else changes. -/
theorem checkReacquire_eq (link : Link) (now : Duration) :
    link.checkReacquire now =
      ({ link with
          input := if link.reacquireDue now then [] else link.input
          stats :=
            { link.stats with
              reacquires := link.stats.reacquires + (link.reacquireDue now).toNat }
          garbageSince := if link.reacquireDue now then none else link.garbageSince },
        if link.reacquireDue now then [.reacquired link.input.length] else []) := by
  cases h : link.reacquireDue now <;> simp [checkReacquire, h]

/-- Failsafe clears the cells when silence has lasted for too long, and nothing else changes. -/
theorem checkFailsafe_eq (link : Link) (cells : Cells) (now startedAt : Duration) :
    link.checkFailsafe cells now startedAt =
      ({ link with
          isValid := link.isValid && !link.failsafeDue now startedAt
          failsafeActive := link.failsafeActive || link.failsafeDue now startedAt
          stats :=
            { link.stats with
              failsafes := link.stats.failsafes + (link.failsafeDue now startedAt).toNat } },
        cells.replay (if link.failsafeDue now startedAt then link.protocol.clearings else []),
        if link.failsafeDue now startedAt then [.failsafe] else []) := by
  cases h : link.failsafeDue now startedAt <;>
    simp [checkFailsafe, h, Protocol.failsafe_eq_replay]

/-- A cycle is its intake followed by output, once the timers are started. -/
theorem process_eq (link : Link) (cells : Cells) (now : Duration) :
    link.process cells now =
      if link.starts now then
        (((link.intake now).link.setDue (link.due? now)).sendOutput
            (cells.replay (link.intake now).writes) now).map fun (link', sent, output) =>
          ⟨link', cells.replay (link.intake now).writes, (link.intake now).events ++ sent, output⟩
      else none := by
  rw [process, start?_eq]
  by_cases hstarts : link.starts now = true
  · rw [if_pos hstarts, if_pos hstarts]
    have heat : (({ link with startedAt := some (link.startTime now) }).setDue
        (link.due? now)).eatInput cells now =
          ((link.eaten now).setDue (link.due? now),
            cells.replay (link.bites.flatMap Bite.writes),
            if link.acquires link.bites then [.acquired] else []) :=
      eatSteps_eq now link.input.length _ cells []
    simp only [heat, checkReacquire_eq, checkFailsafe_eq]
    rw [intake, Cells.replay_append]
    rfl
  · rw [if_neg hstarts, if_neg hstarts]

/-- A cycle takes in what has arrived, and then it sends what is due. -/
theorem process_eq_some {link : Link} {cells : Cells} {now : Duration} {r : CycleResult}
    (h : link.process cells now = some r) :
    ∃ sent,
      ((link.intake now).link.setDue (link.due? now)).sendOutput
          (cells.replay (link.intake now).writes) now = some (r.link, sent, r.output) ∧
        r.cells = cells.replay (link.intake now).writes ∧
        r.events = (link.intake now).events ++ sent ∧
        ∀ period, link.settings.sendPeriod = some period → ∃ due, link.due? now = some due := by
  rw [process_eq] at h
  split at h
  · next hstarts =>
    obtain ⟨⟨link', sent, output⟩, hsend, rfl⟩ := Option.map_eq_some_iff.mp h
    exact ⟨sent, hsend, rfl, rfl, starts_iff.mp hstarts⟩
  · cases h

/-- What a cycle leaves behind, apart from the state that output changes. -/
theorem process_spec {link : Link} {cells : Cells} {now : Duration} {r : CycleResult}
    (h : link.process cells now = some r) :
    r.link = { (link.intake now).link with
        protocol := r.link.protocol, outputNoise := r.link.outputNoise,
        nextOutputAt := r.link.nextOutputAt } ∧
      r.link.protocol.readers = link.protocol.readers ∧
      r.cells = cells.replay (link.intake now).writes ∧
      ∃ sent, r.events = (link.intake now).events ++ sent ∧ ∀ e ∈ sent, ∃ n, e = .sent n := by
  obtain ⟨sent, hsend, hcells, hevents, -⟩ := process_eq_some h
  obtain ⟨hlink, hreaders, hsent⟩ := sendOutput_eq_some hsend
  refine ⟨hlink, hreaders.trans ?_, hcells, sent, hevents, hsent⟩
  exact link.protocol.readers_chew _ _

end Link

end DataLink
