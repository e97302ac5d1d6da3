import DataLink.Proofs.Run

/-!
# Input cut into chunks

What a link makes of its input does not depend on how the bytes arrive. However a string is
cut, and whenever cycles come in between, the same bites are taken from it, as long as no
buffered input is dropped. Everything else that counts here follows from the bites, as long
as no failsafe clears the cells.
-/

namespace DataLink

namespace Action

/-- The bytes that an action feeds. -/
def fed : Action → Bytes
  | .feed bytes => bytes
  | _ => []

/-- Actions that deliver input: feeding, and cycles that eat what was fed. -/
inductive Delivers : Action → Prop where
  | feed (bytes : Bytes) : Delivers (.feed bytes)
  | cycle (now : Duration) : Delivers (.cycle now)

end Action

namespace Site

/-- A string of bytes is fed in chunks, with cycles in between and one after the last chunk.
Meanwhile neither silence nor garbage lasts for too long. -/
structure Delivery (s : Site) (bytes : Bytes) (log : Log) (t : Site) : Prop where
  run : ∃ actions, s.Run actions log t ∧ (∀ a ∈ actions, a.Delivers) ∧
    actions.flatMap Action.fed = bytes ∧ ∃ earlier now, actions = earlier ++ [.cycle now]
  heard : .failsafe ∉ log.events
  kept : ∀ n, .reacquired n ∉ log.events

/-- A cycle that does not tell of failsafe finds none. -/
theorem Cycles.fails_eq_false {s t : Site} {c : CycleLog} (h : s.Cycles c t)
    (hheard : .failsafe ∉ c.events) : s.link.fails c.now = false := by
  rw [Bool.eq_false_iff]
  intro hfails
  exact hheard (h.failsafe_mem_iff.mpr hfails)

/-- A cycle that does not tell of dropped input drops none. -/
theorem Cycles.reacquires_eq_false {s t : Site} {c : CycleLog} (h : s.Cycles c t)
    (hkept : ∀ n, .reacquired n ∉ c.events) : s.link.reacquires c.now = false := by
  rw [Bool.eq_false_iff]
  intro hdrop
  exact hkept _ (h.reacquired_mem_iff.mpr ⟨hdrop, rfl⟩)

/-- Without a source of interference, bytes arrive as they are fed. -/
theorem Run.stream {s t : Site} {actions : List Action} {log : Log} (h : s.Run actions log t)
    (hnoise : s.link.inputNoise = none) : log.stream = actions.flatMap Action.fed := by
  induction h with
  | start => rfl
  | step run last ih =>
    have hquiet := run.inputNoise hnoise
    rw [Log.stream_concat, List.flatMap_append, List.flatMap_singleton, ih]
    cases Step.of_step? last with
    | feed bytes =>
      have harrive : ∀ link : Link, link.inputNoise = none → link.arriving bytes = bytes := by
        intro link hlink
        rw [Link.arriving, hlink]
      rw [Entry.stream, Action.fed, harrive _ hquiet]
    | discard => rfl
    | assign write => rfl
    | cycle c t hc => rfl

/-- As long as no input is dropped, the cycles of a run together eat one stream: what was
buffered before followed by all that arrives. -/
theorem Run.eats {s t : Site} {actions : List Action} {log : Log} (h : s.Run actions log t)
    (hactions : ∀ a ∈ actions, a.Delivers) (hkept : ∀ n, .reacquired n ∉ log.events) :
    s.link.protocol.Eats (s.link.input ++ log.stream) log.bites t.link.input := by
  induction h with
  | start =>
    have hstream : Log.stream [] = [] := rfl
    rw [hstream, List.append_nil]
    exact .nothing _
  | step run last ih =>
    simp only [Log.events_concat, List.mem_append, not_or] at hkept
    rw [List.forall_mem_append] at hactions
    obtain ⟨hbefore, hlast⟩ := hactions
    have heats := ih hbefore fun n => (hkept n).1
    have hdelivers := hlast _ List.mem_cons_self
    rw [Log.stream_concat, Log.bites_concat, ← List.append_assoc]
    cases Step.of_step? last with
    | feed bytes =>
      rw [Link.feed_eq]
      simpa using heats.append _
    | discard => cases hdelivers
    | assign write => cases hdelivers
    | cycle c u hc =>
      have hkeep := hc.reacquires_eq_false fun n => (hkept n).2
      rw [hc.input_eq, hkeep, if_neg Bool.false_ne_true]
      have hmore := hc.eats.1.congr run.readers
      simpa using heats.trans hmore

/-- While input is delivered, the link alone assigns cells. -/
theorem Run.writes {s t : Site} {actions : List Action} {log : Log} (h : s.Run actions log t)
    (hactions : ∀ a ∈ actions, a.Delivers) : log.writes = log.linkWrites := by
  induction h with
  | start => rfl
  | step _ last ih =>
    rw [List.forall_mem_append] at hactions
    have hlast := hactions.2 _ List.mem_cons_self
    rw [Log.writes_concat, Log.linkWrites_concat, ih hactions.1]
    cases Step.of_step? last with
    | feed bytes => rfl
    | discard => rfl
    | assign write => cases hlast
    | cycle c u hc => rfl

/-- Without failsafe, what the link assigns to cells is what it assigns for its bites. -/
theorem Run.linkWrites {s t : Site} {actions : List Action} {log : Log}
    (h : s.Run actions log t) (hheard : .failsafe ∉ log.events) :
    log.linkWrites = log.bites.flatMap Bite.writes := by
  induction h with
  | start => rfl
  | step _ last ih =>
    rw [Log.events_concat, List.mem_append, not_or] at hheard
    rw [Log.linkWrites_concat, Log.bites_concat, List.flatMap_append, ih hheard.1]
    congr 1
    cases Step.of_step? last with
    | feed bytes => rfl
    | discard => rfl
    | assign write => rfl
    | cycle c u hc =>
      have hfails := hc.fails_eq_false hheard.2
      have hwrites := hc.writes
      rw [Link.intake, hfails, if_neg Bool.false_ne_true, List.append_nil, ← hc.bites] at hwrites
      exact hwrites

/-- Without failsafe, a link is valid if it was before or an envelope was accepted. -/
theorem Run.isValid {s t : Site} {actions : List Action} {log : Log}
    (h : s.Run actions log t) (hheard : .failsafe ∉ log.events) :
    t.link.isValid = (s.link.isValid || !log.accepted.isEmpty) := by
  induction h with
  | start => exact (Bool.or_false _).symm
  | step _ last ih =>
    rw [Log.events_concat, List.mem_append, not_or] at hheard
    rw [Log.accepted_concat]
    have hbefore := ih hheard.1
    cases Step.of_step? last with
    | feed bytes =>
      rw [Link.feed_eq]
      simpa using hbefore
    | discard => simpa [Link.discardInput] using hbefore
    | assign write => simpa using hbefore
    | cycle c u hc =>
      have hfails := hc.fails_eq_false hheard.2
      have hvalid := congrArg Link.isValid hc.link
      simp only [Link.intake, hfails, Link.eaten, Link.afterBites, ← hc.bites] at hvalid
      rw [hvalid, hbefore, Entry.bites, Bool.not_false, Bool.and_true, Bool.or_assoc,
        ← Bool.not_and]
      cases Log.accepted _ <;> rfl

/-- After a cycle that drops nothing, what is buffered waits for more input. -/
theorem Cycles.bite?_none {s t : Site} {c : CycleLog} (h : s.Cycles c t)
    (hkept : ∀ n, .reacquired n ∉ c.events) : t.link.protocol.bite? t.link.input = none := by
  rw [h.input_eq, h.reacquires_eq_false hkept, if_neg Bool.false_ne_true, Protocol.bite?_congr h.readers]
  exact h.eats.2

namespace Delivery

variable {s t : Site} {bytes : Bytes} {log : Log}

/-- A delivery eats what was buffered before and what is delivered, until more is needed. -/
theorem eats (h : s.Delivery bytes log t) (hnoise : s.link.inputNoise = none) :
    s.link.protocol.Eats (s.link.input ++ bytes) log.bites t.link.input ∧
      s.link.protocol.bite? t.link.input = none := by
  obtain ⟨actions, hrun, hdelivers, hfed, earlier, now, rfl⟩ := h.run
  have hstream := hrun.stream hnoise
  rw [hfed] at hstream
  refine ⟨hstream ▸ hrun.eats hdelivers h.kept, ?_⟩
  obtain ⟨before, e, u, rfl, -, hlast⟩ := hrun.of_concat
  rw [← Protocol.bite?_congr hrun.readers]
  cases Step.of_step? hlast with
  | cycle c _ hc =>
    apply hc.bite?_none
    intro n hmem
    apply h.kept n
    rw [Log.events_concat, List.mem_append]
    exact .inr hmem

end Delivery

/-- However a string of bytes is cut, and whenever cycles come in between, a link makes the
same of it: the same envelopes are accepted, the same assignments made, and the same bytes
dropped or left to wait. -/
theorem delivery_determined {protocol : Protocol} {settings : Settings} {entropy : Entropy}
    {link : Link} {cells : Cells} {s t t' : Site} {bytes : Bytes} {log log' : Log}
    (hnew : Link.new protocol settings entropy = .ok link)
    (hquiet : settings.inputInterference.le .zero = true)
    (hreach : Reaches ⟨link, cells⟩ s) (h : s.Delivery bytes log t)
    (h' : s.Delivery bytes log' t') :
    log.accepted = log'.accepted ∧
      log.linkWrites = log'.linkWrites ∧
      t.cells = t'.cells ∧
      t.link.stats.errorBytes = t'.link.stats.errorBytes ∧
      t.link.stats.validBytes = t'.link.stats.validBytes ∧
      t.link.stats.validEnvelopes = t'.link.stats.validEnvelopes ∧
      t.link.isValid = t'.link.isValid ∧
      t.link.input = t'.link.input := by
  obtain ⟨_, _, hbefore⟩ := hreach
  have hnoise := hbefore.inputNoise ((Link.Fresh.of_new hnew).quiet hquiet)
  obtain ⟨heats, hstop⟩ := h.eats hnoise
  obtain ⟨heats', hstop'⟩ := h'.eats hnoise
  obtain ⟨hbites, hinput⟩ := heats.unique hstop heats' hstop'
  have haccepted : log.accepted = log'.accepted := congrArg Bite.accepted hbites
  obtain ⟨_, hrun, hdelivers, -⟩ := h.run
  obtain ⟨_, hrun', hdelivers', -⟩ := h'.run
  have hwrites : log.linkWrites = log'.linkWrites := by
    rw [hrun.linkWrites h.heard, hrun'.linkWrites h'.heard, hbites]
  refine ⟨haccepted, hwrites, ?_, ?_, ?_, ?_, ?_, hinput⟩
  · rw [hrun.cells, hrun'.cells, hrun.writes hdelivers, hrun'.writes hdelivers', hwrites]
  · rw [hrun.stats, hrun'.stats, hbites]
  · rw [hrun.stats, hrun'.stats, hbites]
  · rw [hrun.stats, hrun'.stats, haccepted]
  · rw [hrun.isValid h.heard, hrun'.isValid h'.heard, haccepted]

end Site

namespace Gauge

/-- What a cycle tells that accepts the frame after so much garbage. -/
def acceptance (garbage : List Bite) : CycleLog :=
  { now := .zero
    bites := garbage ++ [.accept ⟨0, 3⟩ [⟨"level", some (.unsigned 258)⟩]]
    writes := [⟨"level", some (.unsigned 258)⟩]
    events := [.acquired]
    output := none }

/-- Garbage and an envelope, fed in two pieces with a cycle in between. -/
def cutLog : Log :=
  [.arrived [0, 0xAB], .cycled ⟨.zero, [.drop .unknownMagic], [], [], none⟩, .arrived [2, 1],
    .cycled (acceptance [])]

/-- The same bytes, fed in one piece. -/
def wholeLog : Log := [.arrived [0, 0xAB, 2, 1], .cycled (acceptance [.drop .unknownMagic])]

/-- The bytes can arrive in two chunks with a cycle after each. -/
theorem cut_delivery : ∃ t, site.Delivery (0 :: frame) cutLog t := by
  have hrun : ∃ t, site.run?
      [.feed [0, 0xAB], .cycle .zero, .feed [2, 1], .cycle .zero] = some (cutLog, t) := ⟨_, rfl⟩
  obtain ⟨t, hrun⟩ := hrun
  refine ⟨t, ⟨_, .of_run? hrun, ?_, rfl, [.feed [0, 0xAB], .cycle .zero, .feed [2, 1]], .zero, rfl⟩,
    by decide, by simp [Log.events, cutLog, acceptance]⟩
  simp [Action.Delivers.feed, Action.Delivers.cycle]

/-- The bytes can arrive at once. -/
theorem whole_delivery : ∃ t, site.Delivery (0 :: frame) wholeLog t := by
  have hrun : ∃ t, site.run? [.feed [0, 0xAB, 2, 1], .cycle .zero] = some (wholeLog, t) := ⟨_, rfl⟩
  obtain ⟨t, hrun⟩ := hrun
  refine ⟨t, ⟨_, .of_run? hrun, ?_, rfl, [.feed [0, 0xAB, 2, 1]], .zero, rfl⟩,
    by decide, by simp [Log.events, wholeLog, acceptance]⟩
  simp [Action.Delivers.feed, Action.Delivers.cycle]

/-- However a stray byte and an envelope arrive, the same comes of them. -/
theorem delivery_determined_gauge :
    ∃ t t', site.Delivery (0 :: frame) cutLog t ∧ site.Delivery (0 :: frame) wholeLog t' ∧
      t.cells = t'.cells ∧ t.link.stats.validBytes = t'.link.stats.validBytes ∧
      t.link.input = t'.link.input := by
  obtain ⟨t, h⟩ := cut_delivery
  obtain ⟨t', h'⟩ := whole_delivery
  obtain ⟨-, -, hcells, -, hvalid, -, -, hinput⟩ :=
    Site.delivery_determined new_eq (by decide) ⟨_, _, .start⟩ h h'
  exact ⟨t, t', h, h', hcells, hvalid, hinput⟩

end Gauge

end DataLink
