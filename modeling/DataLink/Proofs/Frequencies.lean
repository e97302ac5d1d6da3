import DataLink.Proofs.Instant
import DataLink.Proofs.Readback
import DataLink.Proofs.RoundingOrder

/-!
# Frequencies of output

The period of a frequency is its reciprocal, rounded to nanoseconds. So the period of a higher
frequency is no longer, and above two gigahertz nothing is left of it. With a period of some length
a link sends at most once at any time. Without, it sends in every cycle at the time of its last
output, as often as it is called.
-/

namespace DataLink

namespace Settings

/-- The highest frequency whose period is not rounded to nothing: two gigahertz. -/
def topFrequency : Binary64 := .ofNat 2000000000

/-- The number that follows the highest frequency. -/
def aboveTop : Binary64 := .ofCode false (topFrequency.code + 1)

/-- The highest frequency is a positive number. -/
theorem positive_topFrequency : topFrequency.Positive := by constructor <;> decide +kernel

/-- The number above the highest frequency is positive. -/
theorem positive_aboveTop : aboveTop.Positive := by constructor <;> decide +kernel

variable {settings : Settings} {hz : Binary64} {period : Duration}

/-- A frequency that passes its check is above zero and has a period. -/
theorem of_isFrequency (h : isFrequency hz = true) :
    hz.Positive ∧ ∃ period, period? hz = some period := by
  simp only [isFrequency, Bool.and_eq_true, Bool.not_eq_true'] at h
  obtain ⟨⟨hfinite, habove⟩, hperiod⟩ := h
  exact ⟨Binary64.positive_of_not_le_zero hfinite habove, Option.isSome_iff_exists.mp hperiod⟩

/-- Settings pass their check only if the frequency does. -/
theorem isFrequency_of_validate (h : settings.validate = .ok ())
    (hhz : settings.sendFrequency = some hz) : isFrequency hz = true := by
  obtain ⟨_, hcheck, -⟩ := of_bind_ok h
  by_contra hbad
  simp [checkFrequency, hhz, hbad] at hcheck

/-- A period is the reciprocal of its frequency, rounded to nanoseconds. -/
theorem nanos_of_period? (h : period? hz = some period) :
    period.nanos = (Binary64.one.div hz).roundScaled Duration.perSecond := by
  simp only [period?, Duration.ofFloatSeconds?] at h
  split at h
  · cases h
  · split at h
    · rw [← Option.some.inj h]
    · cases h

/-- A period is of some length exactly if the frequency is two gigahertz at most. -/
theorem zero_lt_period_iff (hpositive : hz.Positive) (h : period? hz = some period) :
    .zero < period ↔ hz.le topFrequency = true := by
  have hlength : Duration.zero < period ↔
      0 < (Binary64.one.div hz).roundScaled Duration.perSecond := by
    rw [← nanos_of_period? h]
    exact Iff.rfl
  rw [hlength, hpositive.le_iff positive_topFrequency]
  constructor
  · intro hsome
    by_contra hhigher
    have hcode : aboveTop.code ≤ hz.code := by
      rw [aboveTop, Binary64.code_ofCode _ (by decide +kernel)]
      omega
    have hreciprocal := positive_aboveTop.code_one_div_le hpositive hcode
    have hround := Binary64.roundScaled_mono Duration.perSecond hreciprocal
    have hnothing : (Binary64.one.div aboveTop).roundScaled Duration.perSecond = 0 := by
      decide +kernel
    omega
  · intro hcode
    have hreciprocal := hpositive.code_one_div_le positive_topFrequency hcode
    have hround := Binary64.roundScaled_mono Duration.perSecond hreciprocal
    have hone : (Binary64.one.div topFrequency).roundScaled Duration.perSecond = 1 := by
      decide +kernel
    omega

end Settings

/-! ### Output and its time -/

/-- The cycle reported output. -/
def CycleResult.sends (r : CycleResult) : Bool := r.events.any LinkEvent.isSent

/-- After a cycle output is due later than the cycle was. -/
structure CycleResult.Rests (r : CycleResult) (now : Duration) : Prop where
  later : ∃ due, r.link.nextOutputAt = some due ∧ now < due
  /-- Another cycle at this time goes well, whatever the cells hold by then, and sends nothing. -/
  once : ∀ cells, ∃ r', r.link.process cells now = some r' ∧ r'.sends = false
  /-- Nor does any cycle that is no later, whatever is done to the link in between. -/
  quiet : ∀ actions log t, Site.Run ⟨r.link, r.cells⟩ actions log t →
    (∀ c ∈ log.cycles, c.now ≤ now) → ∀ c ∈ log.cycles, c.sends = false

/-- After a cycle output is due at once. -/
structure CycleResult.Repeats (r : CycleResult) (now : Duration) : Prop where
  atOnce : r.link.nextOutputAt = some now
  /-- Another cycle at the same time goes well, whatever the cells hold by then, and sends again. -/
  again : ∀ cells, ∃ r', r.link.process cells now = some r' ∧ r'.sends = true

/-- A cycle before output is due does not send, and output stays due when it was. -/
theorem Link.waits_of_process {link : Link} {cells : Cells} {now period due : Duration}
    {r : CycleResult} (h : link.process cells now = some r)
    (hperiod : link.settings.sendPeriod = some period) (hdue : link.nextOutputAt = some due)
    (hearly : now < due) : r.link.nextOutputAt = some due ∧ r.sends = false := by
  have hdue' : link.due? now = some due := by rw [due?, hdue, Option.some_or]
  obtain ⟨next, hnext, htick⟩ := tick_of_process h hperiod hdue'
  cases htick with
  | waits _ hnone =>
    exact ⟨hnext, Schedule.sent_eq_zero_iff.mp hnone (link.cycleLog now r) (by simp)⟩
  | sends hle => exact absurd hearly (Nat.not_lt.mpr hle)

/-- As long as output is due later, cycles do not send. -/
theorem Site.Run.quiet {s t : Site} {actions : List Action} {log : Log} {period due : Duration}
    (h : s.Run actions log t) (hperiod : s.link.settings.sendPeriod = some period)
    (hdue : s.link.nextOutputAt = some due) (hearly : ∀ c ∈ log.cycles, c.now < due) :
    t.link.nextOutputAt = some due ∧ ∀ c ∈ log.cycles, c.sends = false := by
  induction h with
  | start => exact ⟨hdue, by simp [Log.cycles]⟩
  | @step actions log t u a e run last ih =>
    rw [Log.cycles_concat] at hearly ⊢
    obtain ⟨hbefore, hlast⟩ := List.forall_mem_append.mp hearly
    obtain ⟨hnext, hquiet⟩ := ih hbefore
    cases a with
    | feed bytes =>
      cases last
      rw [Link.feed_eq]
      simpa using ⟨hnext, hquiet⟩
    | discard =>
      cases last
      simpa [Link.discardInput] using ⟨hnext, hquiet⟩
    | assign write =>
      cases last
      simpa using ⟨hnext, hquiet⟩
    | cycle now =>
      obtain ⟨r, hr, heq⟩ := Option.map_eq_some_iff.mp last
      cases heq
      have hlt : now < due := hlast (t.link.cycleLog now r) (by simp [Entry.cycle?])
      obtain ⟨hnext', hsilent⟩ :=
        Link.waits_of_process hr (run.settings.symm ▸ hperiod) hnext hlt
      have hcycle : ∀ c ∈ [t.link.cycleLog now r], c.sends = false :=
        List.forall_mem_singleton.mpr hsilent
      exact ⟨hnext', List.forall_mem_append.mpr ⟨hquiet, hcycle⟩⟩

namespace Link

variable {link : Link} {cells : Cells} {now period : Duration} {r : CycleResult}

/-- With a period of some length, output is due later after every cycle. -/
theorem rests_of_process (hperiod : link.settings.sendPeriod = some period)
    (hpos : .zero < period) (h : link.process cells now = some r) : r.Rests now := by
  obtain ⟨due, hdue, hlt⟩ := ahead_of_process hperiod hpos h
  have hsettings : r.link.settings = link.settings := (Site.Cycles.of_process h).settings
  have hperiods : ∀ other, link.settings.sendPeriod = some other → .zero < other := by
    intro other hother
    rw [hperiod] at hother
    cases hother
    exact hpos
  have hsettled : r.link.Settled now := settled_of_process hperiods h
  refine ⟨⟨due, hdue, hlt⟩, fun cells => ⟨_, hsettled.process cells, rfl⟩, ?_⟩
  intro actions log t hrun hno_later
  refine (hrun.quiet (hsettings ▸ hperiod) hdue fun c hc => ?_).2
  exact Nat.lt_of_le_of_lt (hno_later c hc) hlt

/-- Without a period, output that was sent is due again at once. -/
theorem followingOutput?_of_zero {due next : Duration} (hle : due ≤ now)
    (h : followingOutput? .zero due now = some next) :
    next = now ∧ (now.add? .zero).isSome = true := by
  obtain ⟨planned, hplanned, h⟩ : ∃ planned, due.add? .zero = some planned ∧
      (if planned ≤ now then now.add? .zero else some planned) = some next := by
    unfold followingOutput? at h
    split at h
    · cases h
    · exact ⟨_, ‹_›, h⟩
  have hnanos : planned.nanos = due.nanos := Duration.nanos_of_add? hplanned
  have hlate : planned ≤ now := by
    show planned.nanos ≤ now.nanos
    rw [hnanos]
    exact hle
  rw [if_pos hlate] at h
  exact ⟨congrArg Duration.mk (Duration.nanos_of_add? h), by rw [h]; rfl⟩

/-- A cycle at which output is due sends it. -/
theorem sends_of_due {due : Duration} (h : link.process cells now = some r)
    (hperiod : link.settings.sendPeriod = some period) (hdue : link.due? now = some due)
    (hle : due ≤ now) : r.sends = true := by
  obtain ⟨_, -, htick⟩ := tick_of_process h hperiod hdue
  have hsent : Schedule.sent [link.cycleLog now r] ≠ 0 := by
    rw [htick.sends_of_le hle]
    exact Nat.one_ne_zero
  exact Schedule.sends_iff.mpr hsent

/-- Without a period, a cycle that sends is followed by others at the same time that send, too. -/
theorem repeats_of_process (hperiod : link.settings.sendPeriod = some .zero)
    (h : link.process cells now = some r) (hsends : r.sends = true) : r.Repeats now := by
  obtain ⟨-, -, -, -, hrepresentable⟩ := process_eq_some h
  obtain ⟨due, hdue⟩ := hrepresentable .zero hperiod
  obtain ⟨next, hnext, htick⟩ := tick_of_process h hperiod hdue
  have hsettings : r.link.settings = link.settings := (Site.Cycles.of_process h).settings
  have hperiod' : r.link.settings.sendPeriod = some .zero := hsettings ▸ hperiod
  cases htick with
  | waits _ hnone => exact absurd hnone (Schedule.sends_iff.mp hsends)
  | sends hle _ hfollowing =>
    obtain ⟨rfl, hroom⟩ := followingOutput?_of_zero hle hfollowing
    refine ⟨hnext, fun cells => ?_⟩
    have hearly : r.link.Early next := by
      intro period hsome
      rw [hperiod'] at hsome
      cases hsome
      exact hroom
    have hagain : r.link.due? next = some next := by rw [due?, hnext, Option.some_or]
    obtain ⟨r', hr'⟩ := Option.isSome_iff_exists.mp ((timed_of_process h).process hearly cells)
    exact ⟨r', hr', sends_of_due hr' hperiod' hagain (Nat.le_refl _)⟩

/-- Without a period, a link that was set up sends in its first cycle. -/
theorem Fresh.sends_at_zero {protocol : Protocol} {settings : Settings}
    (hfresh : link.Fresh protocol settings) (hperiod : settings.sendPeriod = some .zero)
    (cells : Cells) : ∃ r, (link.feed []).process cells .zero = some r ∧ r.sends = true := by
  obtain ⟨r, hr⟩ := hfresh.process_zero [] cells
  have hperiod' : (link.feed []).settings.sendPeriod = some .zero := by
    rw [feed_eq, ← hperiod, ← hfresh.settings]
  have hdue : (link.feed []).due? .zero = some .zero := by
    rw [due?, hperiod', startTime, feed_eq, hfresh.nextOutputAt, hfresh.startedAt]
    decide
  exact ⟨r, hr, sends_of_due hr hperiod' hdue (Nat.le_refl _)⟩

/-- Whatever is done with the link and its cells before, a cycle that sends is the last one to do so
at its time. -/
def SendsOnce (link : Link) : Prop :=
  ∀ cells s, Site.Reaches ⟨link, cells⟩ s →
    ∀ now r, s.link.process s.cells now = some r → r.sends = true → r.Rests now

/-- Whatever is done with the link and its cells before, a cycle that sends is followed by others at
its time that send, too. -/
def SendsAgain (link : Link) : Prop :=
  ∀ cells s, Site.Reaches ⟨link, cells⟩ s →
    ∀ now r, s.link.process s.cells now = some r → r.sends = true → r.Repeats now

/-- With a period above zero a cycle that sends is the last one to do so at its time. -/
theorem sendsOnce_of_pos (hperiod : link.settings.sendPeriod = some period)
    (hpos : .zero < period) : link.SendsOnce := by
  rintro cells s ⟨actions, log, hrun⟩ now r hr -
  exact rests_of_process (hrun.settings.symm ▸ hperiod) hpos hr

/-- With a period of zero a cycle that sends is followed by others at its time that send. -/
theorem sendsAgain_of_zero (hperiod : link.settings.sendPeriod = some .zero) :
    link.SendsAgain := by
  rintro cells s ⟨actions, log, hrun⟩ now r hr hsends
  exact repeats_of_process (hrun.settings.symm ▸ hperiod) hr hsends

/-- A link that was set up without a period does send, so it does not send only once. -/
theorem Fresh.not_sendsOnce {protocol : Protocol} {settings : Settings}
    (hfresh : link.Fresh protocol settings) (hperiod : settings.sendPeriod = some .zero) :
    ¬ link.SendsOnce := by
  intro honce
  obtain ⟨r, hr, hsends⟩ := hfresh.sends_at_zero hperiod .empty
  have hreach : Site.Reaches ⟨link, .empty⟩ ⟨link.feed [], .empty⟩ :=
    ⟨[.feed []], _, .step .start rfl⟩
  have hagain : link.SendsAgain := sendsAgain_of_zero (hfresh.settings.symm ▸ hperiod)
  obtain ⟨r', hr', hsilent⟩ := (honce _ _ hreach _ _ hr hsends).once .empty
  obtain ⟨r'', hr'', hsends'⟩ := (hagain _ _ hreach _ _ hr hsends).again .empty
  obtain rfl := Option.some.inj (hr'.symm.trans hr'')
  rw [hsilent] at hsends'
  cases hsends'

end Link

/-- A link that sends with an accepted frequency sends at most once at any time exactly if the
frequency is two gigahertz at most. Higher ones are accepted as well, but nothing is left of their
periods. Whenever output is sent then, it is due again at once, and another cycle at that time sends
again. -/
theorem output_once_per_instant_iff {protocol : Protocol} {settings : Settings} {entropy : Entropy}
    {link : Link} {hz : Binary64} (hnew : Link.new protocol settings entropy = .ok link)
    (hhz : settings.sendFrequency = some hz) :
    (settings.sendPeriod = some .zero ↔ hz.le Settings.topFrequency = false) ∧
      (link.SendsOnce ↔ hz.le Settings.topFrequency = true) ∧
      (hz.le Settings.topFrequency = false → link.SendsAgain) := by
  have hfresh := Link.Fresh.of_new hnew
  obtain ⟨hpositive, period, hperiod⟩ :=
    Settings.of_isFrequency (Settings.isFrequency_of_validate (Link.validate_of_new hnew) hhz)
  have hsends : settings.sendPeriod = some period := by
    rw [Settings.sendPeriod, hhz, Option.bind_some, hperiod]
  have hpos := Settings.zero_lt_period_iff hpositive hperiod
  have hzero : settings.sendPeriod = some .zero ↔ hz.le Settings.topFrequency = false := by
    rw [hsends, Option.some_inj, ← Bool.not_eq_true, ← hpos]
    constructor
    · rintro rfl
      exact Nat.lt_irrefl 0
    · intro hnone
      exact congrArg Duration.mk (Nat.eq_zero_of_not_pos hnone)
  refine ⟨hzero, ⟨fun honce => ?_, fun hlow => ?_⟩, fun hhigh => ?_⟩
  · by_contra hhigh
    exact hfresh.not_sendsOnce (hzero.mpr (Bool.not_eq_true _ ▸ hhigh)) honce
  · exact Link.sendsOnce_of_pos (hfresh.settings.symm ▸ hsends) (hpos.mpr hlow)
  · exact Link.sendsAgain_of_zero (hfresh.settings.symm ▸ hzero.mpr hhigh)

namespace Gauge

/-- Output is sent at a frequency. -/
def atFrequency (hz : Binary64) : Settings := { Settings.default with sendFrequency := some hz }

/-- A link can be set up for every frequency that passes validation. -/
theorem new_atFrequency {hz : Binary64} (hvalid : (atFrequency hz).validate = .ok ()) :
    Link.new protocol (atFrequency hz) 0 = .ok { link with settings := atFrequency hz } := by
  have hprotocol : protocol.verify = .ok () := rfl
  simp only [Link.new, Link.verify, hprotocol, hvalid]
  rfl

/-- At two gigahertz output is sent once, and at the next frequency again and again. -/
theorem output_once_per_instant_gauge :
    Link.SendsOnce { link with settings := atFrequency Settings.topFrequency } ∧
      ¬ Link.SendsOnce { link with settings := atFrequency Settings.aboveTop } ∧
      Link.SendsAgain { link with settings := atFrequency Settings.aboveTop } := by
  have htop := output_once_per_instant_iff
    (@new_atFrequency Settings.topFrequency (by decide +kernel)) rfl
  have habove := output_once_per_instant_iff
    (@new_atFrequency Settings.aboveTop (by decide +kernel)) rfl
  have hhigh : Settings.aboveTop.le Settings.topFrequency = false := by decide +kernel
  refine ⟨htop.2.1.mpr (by decide +kernel), fun honce => ?_, habove.2.2 hhigh⟩
  exact Bool.false_ne_true (hhigh.symm.trans (habove.2.1.mp honce))

/-- At four gigahertz two cycles at time zero send the same, and output is due once more. -/
theorem sent_twice_at_once :
    ∃ link log t, Link.new protocol (atFrequency (.ofNat 4000000000)) 0 = .ok link ∧
      Site.Run ⟨link, site.cells⟩ [.cycle .zero, .cycle .zero] log t ∧
      log = [.cycled (sendingCycle .zero), .cycled (sendingCycle .zero)] ∧
      t.link.nextOutputAt = some .zero := by
  have hruns : (Site.run? ⟨{ link with settings := atFrequency (.ofNat 4000000000) }, site.cells⟩
      [.cycle .zero, .cycle .zero]).map (fun r => (r.1, r.2.link.nextOutputAt)) =
        some ([.cycled (sendingCycle .zero), .cycled (sendingCycle .zero)], some .zero) := by
    decide +kernel
  obtain ⟨⟨log, t⟩, hrun, heq⟩ := Option.map_eq_some_iff.mp hruns
  obtain ⟨hlog, hdue⟩ := Prod.mk.inj heq
  exact ⟨_, log, t, new_atFrequency (by decide +kernel), .of_run? hrun, hlog, hdue⟩

end Gauge

end DataLink
