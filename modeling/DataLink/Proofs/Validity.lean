import DataLink.Proofs.Reacquisition
import DataLink.Proofs.Schedule

/-!
# Validity

A link is acquired by the first envelope after it was invalid, and made invalid by failsafe. These
two events take turns, and the latest of them tells whether the link is valid. Within one cycle
events come in a fixed order, and an envelope rules out that garbage or silence is reported.
-/

namespace DataLink

/-- Whether the event makes the link valid or invalid. -/
def LinkEvent.isChange : LinkEvent → Bool
  | .acquired => true
  | .failsafe => true
  | _ => false

/-- What a cycle reported to have made the link valid or invalid. -/
def CycleLog.changes (c : CycleLog) : List LinkEvent := c.events.filter LinkEvent.isChange

/-- The events of a run that made the link valid or invalid. -/
def Log.changes (log : Log) : List LinkEvent := log.cycles.flatMap CycleLog.changes

/-- Failsafe is reported only if it was not before. -/
theorem Link.calm_of_fails {link : Link} {now : Duration} (h : link.fails now = true) :
    (link.eaten now).failsafeActive = false := by
  unfold fails failsafeDue at h
  split at h
  · rw [Bool.and_eq_true, Bool.not_eq_true'] at h
    exact h.1
  · cases h

namespace Site

/-- What a cycle does to the validity of the link: the changes it reports, and the state that it
leaves. -/
inductive Changes (s : Site) (c : CycleLog) (t : Site) : List LinkEvent → Prop where
  /-- An envelope arrives while the link is invalid. -/
  | acquires (invalid : s.link.isValid = false) (valid : t.link.isValid = true)
      (calm : t.link.failsafeActive = false) (heard : t.link.lastValidAt = some c.now) :
      s.Changes c t [.acquired]
  /-- An envelope arrives while the link is valid. -/
  | keeps (valid : s.link.isValid = true) (valid' : t.link.isValid = true)
      (calm : t.link.failsafeActive = false) (heard : t.link.lastValidAt = some c.now) :
      s.Changes c t []
  /-- No envelope arrived for too long. -/
  | fails (calm : s.link.failsafeActive = false) (invalid : t.link.isValid = false)
      (active : t.link.failsafeActive = true) : s.Changes c t [.failsafe]
  /-- No envelope arrives, and silence is not reported. -/
  | rests (valid : t.link.isValid = s.link.isValid)
      (active : t.link.failsafeActive = s.link.failsafeActive)
      (heard : t.link.lastValidAt = s.link.lastValidAt) : s.Changes c t []

variable {s t : Site} {c : CycleLog}

/-- The changes that a cycle reports are found before output. -/
theorem Cycles.changes_eq (h : s.Cycles c t) :
    c.changes =
      (if s.link.acquires s.link.bites then [.acquired] else []) ++
        if s.link.fails c.now then [.failsafe] else [] := by
  obtain ⟨sent, hevents, hsent⟩ := h.events
  have hnone : sent.filter LinkEvent.isChange = [] := by
    rw [List.filter_eq_nil_iff]
    intro e he
    obtain ⟨n, rfl⟩ := hsent e he
    exact Bool.false_ne_true
  have hone (b : Bool) (e : LinkEvent) :
      (if b = true then [e] else []).filter LinkEvent.isChange =
        if (b && e.isChange) = true then [e] else [] := by
    cases b with
    | false => rfl
    | true =>
      rw [if_pos rfl, List.filter_singleton, Bool.true_and]
      cases e.isChange <;> rfl
  rw [CycleLog.changes, hevents, List.filter_append, hnone, List.append_nil]
  simp only [Link.intake, List.filter_append, hone]
  simp [LinkEvent.isChange]

/-- A cycle changes the validity of the link as it reports. -/
theorem Cycles.changes (h : s.Cycles c t) : s.Changes c t c.changes := by
  have hvalid := congrArg Link.isValid h.link
  have hactive := congrArg Link.failsafeActive h.link
  have hheard := congrArg Link.lastValidAt h.link
  simp only [Link.intake, Link.eaten, Link.afterBites] at hvalid hactive hheard
  rw [h.changes_eq, Link.acquires]
  cases haccepted : (Bite.accepted s.link.bites).isEmpty with
  | false =>
    have hfails : s.link.fails c.now = false :=
      Link.fails_of_accepted (List.isEmpty_eq_false_iff.mp haccepted) c.now
    rw [hfails, haccepted] at hvalid hactive
    rw [haccepted] at hheard
    simp only [Bool.not_false, Bool.or_true, Bool.and_false, Bool.or_false, Bool.and_true,
      Bool.false_eq_true, if_false] at hvalid hactive hheard
    rw [hfails, if_neg Bool.false_ne_true, List.append_nil]
    cases hbefore : s.link.isValid with
    | false => exact .acquires hbefore hvalid hactive hheard
    | true => exact .keeps hbefore hvalid hactive hheard
  | true =>
    rw [haccepted] at hvalid hactive hheard
    simp only [Bool.not_true, Bool.or_false, Bool.and_true, if_true] at hvalid hactive hheard
    rw [Bool.not_true, Bool.and_false, if_neg Bool.false_ne_true, List.nil_append]
    cases hfails : s.link.fails c.now with
    | false =>
      rw [hfails, Bool.not_false, Bool.and_true] at hvalid
      rw [hfails, Bool.or_false] at hactive
      exact .rests hvalid hactive hheard
    | true =>
      rw [hfails, Bool.not_true, Bool.and_false] at hvalid
      rw [hfails, Bool.or_true] at hactive
      have hcalm : (s.link.eaten c.now).failsafeActive = false := Link.calm_of_fails hfails
      simp only [Link.eaten, Link.afterBites, haccepted, Bool.and_true] at hcalm
      exact .fails hcalm hvalid hactive

/-- The link is as the changes reported so far tell. -/
structure Tracks (changes : List LinkEvent) (link : Link) : Prop where
  alternate : changes.IsChain (· ≠ ·)
  valid : link.isValid = true ↔ changes.getLast? = some .acquired
  active : link.failsafeActive = true ↔ changes.getLast? = some .failsafe
  heard : link.isValid = true ↔ link.lastValidAt.isSome = true ∧ link.failsafeActive = false

/-- A fresh link is as no changes leave it. -/
theorem Tracks.of_fresh {link : Link} {protocol : Protocol} {settings : Settings}
    (h : link.Fresh protocol settings) : Tracks [] link := by
  constructor
  · exact .nil
  · simp [h.isValid]
  · simp [h.failsafeActive]
  · simp [h.isValid, h.lastValidAt]

/-- A change can follow if it is not the latest one again. -/
theorem Tracks.alternate_concat {changes : List LinkEvent} {e : LinkEvent} (h : Tracks changes s.link)
    (hnew : changes.getLast? ≠ some e) : (changes ++ [e]).IsChain (· ≠ ·) := by
  refine List.isChain_append.mpr ⟨h.alternate, .singleton e, ?_⟩
  intro last hlast first hfirst heq
  cases hfirst
  rw [heq] at hlast
  exact hnew hlast

/-- A cycle keeps the link as its changes tell. -/
theorem Tracks.cycle {before changes : List LinkEvent} (h : Tracks before s.link)
    (hc : s.Changes c t changes) : Tracks (before ++ changes) t.link := by
  cases hc with
  | acquires invalid valid calm heard =>
    have hnew : before.getLast? ≠ some .acquired := by
      intro hlast
      rw [h.valid.mpr hlast] at invalid
      cases invalid
    refine ⟨h.alternate_concat hnew, ?_, ?_, ?_⟩
    · simp [valid]
    · simp [calm]
    · simp [valid, calm, heard]
  | keeps valid valid' calm heard =>
    have hlast := h.valid.mp valid
    rw [List.append_nil]
    refine ⟨h.alternate, ?_, ?_, ?_⟩
    · simp [valid', hlast]
    · simp [calm, hlast]
    · simp [valid', calm, heard]
  | fails calm invalid active =>
    have hnew : before.getLast? ≠ some .failsafe := by
      intro hlast
      rw [h.active.mpr hlast] at calm
      cases calm
    refine ⟨h.alternate_concat hnew, ?_, ?_, ?_⟩
    · simp [invalid]
    · simp [active]
    · simp [invalid, active]
  | rests valid active heard =>
    rw [List.append_nil]
    refine ⟨h.alternate, ?_, ?_, ?_⟩
    · rw [valid, h.valid]
    · rw [active, h.active]
    · rw [valid, active, heard, h.heard]

namespace Run

variable {actions : List Action} {log : Log}

/-- However a link is run, it is as the changes reported so far tell. -/
theorem tracks (h : s.Run actions log t) (hstart : Tracks [] s.link) :
    Tracks log.changes t.link := by
  apply h.of_cycles (I := fun cycles link => Tracks (cycles.flatMap CycleLog.changes) link) hstart
  · intro cycles link input inputNoise hlink
    exact ⟨hlink.alternate, hlink.valid, hlink.active, hlink.heard⟩
  · intro before c u v hc hlink
    rw [List.flatMap_append, List.flatMap_singleton]
    exact hlink.cycle hc.changes

/-- Every cycle of a run is carried out from a state that the run leads through. -/
theorem exists_of_mem_cycles (h : s.Run actions log t) (hc : c ∈ log.cycles) :
    ∃ earlier before u v, s.Run earlier before u ∧
      u.step? (.cycle c.now) = some (.cycled c, v) := by
  induction h with
  | start => cases hc
  | @step actions log t u a e run last ih =>
    rw [Log.cycles_concat, List.mem_append] at hc
    rcases hc with hc | hc
    · exact ih hc
    · cases e with
      | cycled d =>
        obtain rfl := List.mem_singleton.mp hc
        cases Step.of_step? last with
        | cycle _ _ _ => exact ⟨actions, log, t, u, run, last⟩
      | _ => cases hc

end Run

/-- A step that is a cycle is one of the site. -/
theorem Cycles.of_step? {now : Duration} (h : s.step? (.cycle now) = some (.cycled c, t)) :
    s.Cycles c t := by
  cases Step.of_step? h with
  | cycle _ _ hcycles => exact hcycles

/-- The events of one cycle come in a fixed order, each at most once. -/
theorem events_sublist {now : Duration} (h : s.step? (.cycle now) = some (.cycled c, t)) :
    ∃ discarded bytes,
      c.events.Sublist [.acquired, .reacquired discarded, .failsafe, .sent bytes] := by
  obtain ⟨r, hr, heq⟩ := Option.map_eq_some_iff.mp h
  cases heq
  obtain ⟨sent, hevents, hpaces⟩ := Link.paces_of_process hr
  have hsent : ∃ bytes, sent.Sublist [.sent bytes] := by
    generalize r.link.nextOutputAt = next at hpaces
    cases hpaces with
    | waits _ => exact ⟨0, List.nil_sublist _⟩
    | sends bytes _ _ _ _ => exact ⟨bytes, List.Sublist.refl _⟩
  have hone (b : Bool) (e : LinkEvent) : (if b = true then [e] else []).Sublist [e] := by
    cases b with
    | false => exact List.nil_sublist _
    | true => exact List.Sublist.refl _
  obtain ⟨bytes, hsent⟩ := hsent
  refine ⟨(s.link.eaten now).input.length, bytes, ?_⟩
  have hintake := ((hone (s.link.acquires s.link.bites) .acquired).append
    (hone (s.link.reacquires now) (.reacquired (s.link.eaten now).input.length))).append
      (hone (s.link.fails now) .failsafe)
  rw [Link.cycleLog, hevents]
  exact hintake.append hsent

/-- A cycle that acquires the link reports neither garbage nor silence. -/
theorem Cycles.not_mem_of_acquired (h : s.Cycles c t) (hacquired : .acquired ∈ c.events) :
    .failsafe ∉ c.events ∧ ∀ discarded, .reacquired discarded ∉ c.events := by
  have haccepted : Bite.accepted s.link.bites ≠ [] := by
    rw [h.mem_events (by simp), Link.mem_intake] at hacquired
    simp only [reduceCtorEq, and_false, or_false, and_true, Link.acquires, Bool.and_eq_true,
      Bool.not_eq_true', List.isEmpty_eq_false_iff] at hacquired
    exact hacquired.2
  constructor
  · rw [h.failsafe_mem_iff, Link.fails_of_accepted haccepted]
    exact Bool.false_ne_true
  · intro discarded
    rw [h.reacquired_mem_iff, Link.reacquires_of_accepted haccepted]
    exact fun hdrop => Bool.false_ne_true hdrop.1

end Site

/-- A link is acquired and fails safe in turns. It is valid exactly after it was acquired, that is
if an envelope was accepted and silence was not reported since. In every cycle events come in
a fixed order, and one that acquires the link reports neither garbage nor silence. -/
theorem validity_alternates {protocol : Protocol} {settings : Settings} {entropy : Entropy}
    {link : Link} {cells : Cells} {actions : List Action} {log : Log} {t : Site}
    (hnew : Link.new protocol settings entropy = .ok link)
    (h : Site.Run ⟨link, cells⟩ actions log t) :
    log.changes.IsChain (· ≠ ·) ∧
      (t.link.isValid = true ↔ log.changes.getLast? = some .acquired) ∧
      (t.link.isValid = true ↔
        t.link.lastValidAt.isSome = true ∧ t.link.failsafeActive = false) ∧
      ∀ c ∈ log.cycles,
        (∃ discarded bytes,
          c.events.Sublist [.acquired, .reacquired discarded, .failsafe, .sent bytes]) ∧
        (.acquired ∈ c.events →
          .failsafe ∉ c.events ∧ ∀ discarded, .reacquired discarded ∉ c.events) := by
  have htracks := h.tracks (.of_fresh (.of_new hnew))
  refine ⟨htracks.alternate, htracks.valid, htracks.heard, ?_⟩
  intro c hc
  obtain ⟨_, _, u, v, -, hstep⟩ := h.exists_of_mem_cycles hc
  exact ⟨Site.events_sublist hstep, (Site.Cycles.of_step? hstep).not_mem_of_acquired⟩

namespace Gauge

/-- The gauge is silent before its first envelope and after it. -/
def fading : List Action :=
  [.cycle .zero, .cycle (.ofSeconds 2 0), .feed frame, .cycle (.ofSeconds 3 0),
    .cycle (.ofSeconds 5 0)]

/-- What happens then: failsafe is reported for both silences, and in between the link is
acquired. -/
def fadingLog : Log :=
  [.cycled ⟨.zero, [], [], [], none⟩,
    .cycled ⟨.ofSeconds 2 0, [], [⟨"level", none⟩], [.failsafe], none⟩, .arrived frame,
    .cycled
      { now := .ofSeconds 3 0
        bites := [.accept ⟨0, 3⟩ [⟨"level", some (.unsigned 258)⟩]]
        writes := [⟨"level", some (.unsigned 258)⟩]
        events := [.acquired]
        output := none },
    .cycled ⟨.ofSeconds 5 0, [], [⟨"level", none⟩], [.failsafe], none⟩]

/-- Failsafe comes first here, and the only envelope lies between two silences. -/
theorem validity_alternates_gauge :
    ∃ t, site.Run fading fadingLog t ∧ fadingLog.changes = [.failsafe, .acquired, .failsafe] ∧
      fadingLog.changes.IsChain (· ≠ ·) ∧ t.link.isValid = false := by
  have hrun : (site.run? fading).map Prod.fst = some fadingLog := by decide +kernel
  obtain ⟨⟨log, t⟩, hrun, rfl⟩ := Option.map_eq_some_iff.mp hrun
  have hchanges : fadingLog.changes = [.failsafe, .acquired, .failsafe] := by decide
  obtain ⟨hchain, hvalid, -, -⟩ := validity_alternates new_eq (Site.Run.of_run? hrun)
  refine ⟨t, .of_run? hrun, hchanges, hchain, ?_⟩
  rw [Bool.eq_false_iff]
  intro hlink
  have hlast := hvalid.mp hlink
  rw [hchanges] at hlast
  cases hlast

end Gauge

end DataLink
