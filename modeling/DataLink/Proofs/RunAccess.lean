import DataLink.Proofs.LinkAccess
import DataLink.Proofs.Schedule

/-!
# Runs in bounds

Whatever the surroundings do with a link that was set up, no step of the run goes out of its bounds,
apart from sums of times. These are representable if every cycle is early enough for one more
period. The time for output that is carried over from earlier cycles needs no more room than that:
it is moved on only when it has passed.
-/

namespace DataLink

namespace Site

/-! ### Bounds -/

/-- Carries out an action in steps that may go out of their bounds. -/
def stepChecked (s : Site) : Action → Checked Site
  | .feed bytes => do
    let link ← s.link.feedChecked bytes
    .ok { s with link }
  | .discard => .ok { s with link := s.link.discardInput }
  | .assign write => .ok { s with cells := s.cells.put write.cell write.value }
  | .cycle now => do
    let r ← s.link.processChecked s.cells now
    .ok ⟨r.link, r.cells⟩

/-- Carries out actions one after another in such steps. -/
def runChecked (s : Site) : List Action → Checked Site
  | [] => .ok s
  | a :: actions => do
    let t ← s.stepChecked a
    t.runChecked actions

/-- An action is carried out with no other bound than that of times. -/
theorem follows_step {s : Site} (h : s.link.Drawable) (a : Action) :
    (s.stepChecked a).Follows ((s.step? a).map Prod.snd) := by
  cases a with
  | feed bytes =>
    rw [stepChecked, Link.feedChecked_eq h]
    exact .done _
  | discard => exact .done _
  | assign write => exact .done _
  | cycle now =>
    rw [step?, Option.map_map]
    exact (Link.follows_process h s.cells now).map fun _ => rfl

/-- No action changes the probabilities of a link. -/
theorem probabilities_step {s t : Site} {a : Action} {e : Entry} (h : s.step? a = some (e, t)) :
    t.link.probabilities = s.link.probabilities := by
  cases a with
  | feed bytes =>
    cases h
    exact s.link.probabilities_feed bytes
  | discard =>
    cases h
    rfl
  | assign write =>
    cases h
    rfl
  | cycle now =>
    obtain ⟨r, hr, heq⟩ := Option.map_eq_some_iff.mp h
    cases heq
    exact Link.probabilities_process hr

/-- A run of checked steps fails exactly if a time that it needs is not representable. -/
theorem follows_run {s : Site} (h : s.link.Drawable) (actions : List Action) :
    (s.runChecked actions).Follows ((s.run? actions).map Prod.snd) := by
  induction actions generalizing s with
  | nil => exact .done s
  | cons a actions ih =>
    have hbind : (s.run? (a :: actions)).map Prod.snd =
        ((s.step? a).map Prod.snd).bind fun t => (t.run? actions).map Prod.snd := by
      rw [run?]
      cases s.step? a with
      | none => rfl
      | some first =>
        rw [Option.map_some, Option.bind_some, Option.map_map]
        rfl
    rw [runChecked, hbind]
    refine (follows_step h a).bind fun t ht => ih ?_
    obtain ⟨⟨e, t⟩, hstep, rfl⟩ := Option.map_eq_some_iff.mp ht
    rwa [Link.Drawable, probabilities_step hstep]

end Site

/-! ### Times -/

namespace Duration

/-- A sum of times is representable exactly if its nanoseconds stay below the limit. -/
theorem isSome_add?_iff {a b : Duration} :
    (a.add? b).isSome = true ↔ a.nanos + b.nanos < limit := by
  unfold add?
  split <;> simp [*]

/-- What fits after a time fits after an earlier one. -/
theorem isSome_add?_of_le {a b c : Duration} (hle : a ≤ b) (h : (b.add? c).isSome = true) :
    (a.add? c).isSome = true := by
  have hnanos : a.nanos ≤ b.nanos := hle
  rw [isSome_add?_iff] at h ⊢
  omega

end Duration

namespace Link

variable {link : Link} {period due now : Duration}

/-- One more period after a time is representable, if output is enabled. -/
def Early (link : Link) (now : Duration) : Prop :=
  ∀ period, link.settings.sendPeriod = some period → (now.add? period).isSome = true

/-- Once the timers are started, there is a time for output if output is enabled. -/
def Timed (link : Link) : Prop :=
  link.settings.sendPeriod.isSome = true → link.startedAt.isSome = true →
    link.nextOutputAt.isSome = true

/-- If one more period is representable, so is the time of the next output. -/
theorem isSome_followingOutput? (hdue : due ≤ now) (h : (now.add? period).isSome = true) :
    (followingOutput? period due now).isSome = true := by
  obtain ⟨next, hnext⟩ := Option.isSome_iff_exists.mp (Duration.isSome_add?_of_le hdue h)
  simp only [followingOutput?, hnext]
  split
  · exact h
  · rfl

/-- Early enough, output is sent or left alone without an overflow. -/
theorem isSome_sendOutput (h : link.Early now) (cells : Cells) :
    (link.sendOutput cells now).isSome = true := by
  unfold sendOutput
  split
  · next period due hperiod hdue =>
    split
    · rfl
    · next hlt =>
      rw [Option.isSome_map]
      exact isSome_followingOutput? (Nat.not_lt.mp hlt) (h period hperiod)
  · rfl

/-- Early enough, the timers of a link can be started. -/
theorem Timed.starts (htimed : link.Timed) (h : link.Early now) : link.starts now = true := by
  rw [starts_iff]
  intro period hperiod
  rw [← Option.isSome_iff_exists, due?]
  cases hnext : link.nextOutputAt with
  | some next => rfl
  | none =>
    -- Without a time for output there was no cycle yet, so the first time is set from this one.
    have hfirst : link.startedAt = none := by
      rw [← Option.not_isSome_iff_eq_none]
      intro hstarted
      have hsome := htimed (by rw [hperiod]; rfl) hstarted
      rw [hnext] at hsome
      cases hsome
    rw [hperiod, startTime, hfirst]
    exact h period hperiod

/-- A cycle succeeds if it is early enough for one more period. -/
theorem Timed.process (htimed : link.Timed) (h : link.Early now) (cells : Cells) :
    (link.process cells now).isSome = true := by
  have hearly : ((link.intake now).link.setDue (link.due? now)).Early now := h
  rw [process_eq, if_pos (htimed.starts h), Option.isSome_map]
  exact isSome_sendOutput hearly _

/-- After a cycle there is a time for output. -/
theorem timed_of_process {cells : Cells} {r : CycleResult}
    (h : link.process cells now = some r) : r.link.Timed := by
  have hsettings : r.link.settings = link.settings := (Site.Cycles.of_process h).settings
  obtain ⟨sent, -, hpaces⟩ := paces_of_process h
  intro hperiod _
  rw [hsettings] at hperiod
  obtain ⟨period, hperiod⟩ := Option.isSome_iff_exists.mp hperiod
  generalize r.link.nextOutputAt = next at hpaces ⊢
  cases hpaces with
  | waits hwaits =>
    obtain ⟨due, hdue, -⟩ := hwaits period hperiod
    rw [hdue]
    rfl
  | sends => rfl

end Link

namespace Site

/-- Each action keeps the time for output. -/
theorem timed_step {s t : Site} {a : Action} {e : Entry} (h : s.step? a = some (e, t))
    (htimed : s.link.Timed) : t.link.Timed := by
  cases a with
  | feed bytes =>
    cases h
    rwa [Link.feed_eq]
  | discard =>
    cases h
    exact htimed
  | assign write =>
    cases h
    exact htimed
  | cycle now =>
    obtain ⟨r, hr, heq⟩ := Option.map_eq_some_iff.mp h
    cases heq
    exact Link.timed_of_process hr

/-- Each action succeeds whose cycle, if it is one, comes early enough. -/
theorem isSome_step? {s : Site} (htimed : s.link.Timed) {a : Action}
    (h : ∀ now, a = .cycle now → s.link.Early now) : (s.step? a).isSome = true := by
  cases a with
  | feed bytes => rfl
  | discard => rfl
  | assign write => rfl
  | cycle now =>
    rw [step?, Option.isSome_map]
    exact htimed.process (h now rfl) s.cells

/-- A run succeeds if all of its cycles are early enough for one more period. -/
theorem isSome_run? {s : Site} (htimed : s.link.Timed) {actions : List Action}
    (h : ∀ now, .cycle now ∈ actions → s.link.Early now) : (s.run? actions).isSome = true := by
  induction actions generalizing s with
  | nil => rfl
  | cons a actions ih =>
    have hfirst : ∀ now, a = .cycle now → s.link.Early now := by
      rintro now rfl
      exact h now List.mem_cons_self
    obtain ⟨⟨e, t⟩, hstep⟩ := Option.isSome_iff_exists.mp (isSome_step? htimed hfirst)
    have hsettings : t.link.settings = s.link.settings := (Run.step .start hstep).settings
    have hothers : ∀ now, .cycle now ∈ actions → t.link.Early now := by
      intro now hnow
      rw [Link.Early, hsettings]
      exact h now (List.mem_cons_of_mem a hnow)
    rw [run?, hstep]
    simp only [Option.isSome_map]
    exact ih (timed_step hstep htimed) hothers

end Site

/-- Whatever is done with a link that was set up, no access, no remainder, and no draw goes out of
its bounds. Nor does any sum of times, if every cycle is early enough for one more period. -/
theorem accesses_in_bounds {protocol : Protocol} {settings : Settings} {entropy : Entropy}
    {link : Link} (hnew : Link.new protocol settings entropy = .ok link) (cells : Cells)
    (actions : List Action) :
    (∀ breach, Site.runChecked ⟨link, cells⟩ actions = .error breach →
        ∃ a b, breach = .sum a b) ∧
      (∀ t, Site.runChecked ⟨link, cells⟩ actions = .ok t ↔
        ∃ log, Site.Run ⟨link, cells⟩ actions log t) ∧
      ((∀ period now, settings.sendPeriod = some period → .cycle now ∈ actions →
          (now.add? period).isSome = true) →
        ∃ t, Site.runChecked ⟨link, cells⟩ actions = .ok t) := by
  have hfresh := Link.Fresh.of_new hnew
  have hfollows := @Site.follows_run ⟨link, cells⟩ (Link.drawable_of_new hnew) actions
  obtain ⟨hbreach, hok⟩ := hfollows.spec
  refine ⟨hbreach, fun t => ?_, fun hroom => ?_⟩
  · rw [hok, Option.map_eq_some_iff]
    constructor
    · rintro ⟨⟨log, t⟩, hrun, rfl⟩
      exact ⟨log, .of_run? hrun⟩
    · rintro ⟨log, hrun⟩
      exact ⟨(log, t), hrun.run?_eq, rfl⟩
  · have htimed : link.Timed := by
      intro _ hstarted
      rw [hfresh.startedAt] at hstarted
      cases hstarted
    have hearly : ∀ now, .cycle now ∈ actions → link.Early now := by
      intro now hnow period hperiod
      rw [hfresh.settings] at hperiod
      exact hroom period now hperiod hnow
    obtain ⟨⟨log, t⟩, hrun⟩ :=
      Option.isSome_iff_exists.mp (@Site.isSome_run? ⟨link, cells⟩ htimed actions hearly)
    exact ⟨t, (hok t).mpr (by rw [hrun]; rfl)⟩

namespace Gauge

/-- Output is sent once a second, and every piece of input and output is spoiled. -/
def noisy : Settings :=
  { secondly with
    inputInterference := .one
    outputInterference := .one
    interferenceSeed := some 7 }

/-- An envelope and garbage arrive, bytes are dropped, and output is due for the first time at
the last cycle. -/
def stirring : List Action :=
  [.feed [0xAB, 7, 0, 1], .cycle .zero, .feed [0xAB], .discard, .feed [0xAB, 9, 0],
    .cycle (.ofSeconds 2 0)]

/-- Nothing that a link with interference does goes out of its bounds. -/
theorem accesses_in_bounds_gauge :
    ∃ link, Link.new protocol noisy 0 = .ok link ∧
      ∃ t, Site.runChecked ⟨link, site.cells⟩ stirring = .ok t := by
  have hprotocol : protocol.verify = .ok () := rfl
  have hvalid : noisy.validate = .ok () := by decide +kernel
  have hperiod : noisy.sendPeriod = some (.ofSeconds 1 0) := by decide +kernel
  obtain ⟨link, hnew⟩ : ∃ link, Link.new protocol noisy 0 = .ok link := by
    simp only [Link.new, Link.verify, hprotocol, hvalid]
    exact ⟨_, rfl⟩
  refine ⟨link, hnew, (accesses_in_bounds hnew site.cells stirring).2.2 ?_⟩
  intro period now h hnow
  obtain rfl := Option.some.inj (hperiod.symm.trans h)
  have htimes : now = .zero ∨ now = .ofSeconds 2 0 := by simpa [stirring] using hnow
  rcases htimes with rfl | rfl
  · decide
  · decide

/-- A first cycle at the end of time has no room for a period. -/
example :
    (Site.runChecked ⟨{ link with settings := secondly }, site.cells⟩
        [.feed frame, .cycle ⟨Duration.limit - 1⟩]).map (fun _ => ()) =
      .error (.sum ⟨Duration.limit - 1⟩ (.ofSeconds 1 0)) := by
  decide +kernel

end Gauge

end DataLink
