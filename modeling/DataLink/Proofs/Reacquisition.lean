import DataLink.Proofs.Conservation
import Mathlib.Data.List.DropRight

/-!
# Reacquisition

A link drops what it has buffered when garbage has lasted for too long. Since when it has lasted
is a matter of history: of the bytes dropped as garbage after the last envelope that was accepted
and after the last time the link reacquired. Idle cycles and input that the surroundings discard
have no part in it. What is dropped is never an envelope, nor could it have been eaten.
-/

namespace DataLink

/-- A moment that the age of garbage depends on. -/
inductive GarbageMark where
  /-- A byte was dropped as garbage, in the cycle of this time. -/
  | dropped (now : Duration)
  /-- An envelope was accepted, or the link reacquired. Garbage before that no longer counts. -/
  | cleared
  deriving DecidableEq, Repr

/-- When a byte was dropped as garbage. -/
def GarbageMark.time? : GarbageMark → Option Duration
  | .dropped now => some now
  | .cleared => none

/-- What a bite means for the age of garbage. -/
def Bite.mark (now : Duration) : Bite → GarbageMark
  | .accept _ _ => .cleared
  | .drop _ => .dropped now

namespace CycleLog

/-- What the eating of the cycle means for the age of garbage. -/
def eatingMarks (c : CycleLog) : List GarbageMark := c.bites.map (Bite.mark c.now)

/-- What the whole cycle means for the age of garbage. -/
def marks (c : CycleLog) : List GarbageMark :=
  c.eatingMarks ++ if c.events.any LinkEvent.isReacquired then [.cleared] else []

end CycleLog

namespace Reacquisition

/-- When the present garbage began: the time of the first byte of it, if there is any. It reaches
back to the last moment that cleared the garbage before. -/
def start? (marks : List GarbageMark) : Option Duration :=
  (marks.rtakeWhile fun m => m.time?.isSome).findSome? GarbageMark.time?

/-- A cycle that follows some others finds, once it has eaten, that garbage has lasted for longer
than is allowed. -/
def Due (allowed : Option Duration) (before : List CycleLog) (c : CycleLog) : Prop :=
  ∃ a g, allowed = some a ∧ start? (before.flatMap CycleLog.marks ++ c.eatingMarks) = some g ∧
    a < c.now.since g

/-- More garbage does not change when it began. -/
theorem start?_concat_dropped (marks : List GarbageMark) (now : Duration) :
    start? (marks ++ [.dropped now]) = some ((start? marks).getD now) := by
  rw [start?, List.rtakeWhile_concat_pos _ _ _ rfl, List.findSome?_append, ← start?]
  cases start? marks <;> rfl

/-- Once garbage was cleared, there is none. -/
theorem start?_concat_cleared (marks : List GarbageMark) :
    start? (marks ++ [.cleared]) = none := by
  rw [start?, List.rtakeWhile_concat_neg _ _ _ Bool.false_ne_true]
  rfl

/-- Eating moves the start of garbage like the link does. -/
theorem start?_append_bites (marks : List GarbageMark) (now : Duration) (bites : List Bite) :
    start? (marks ++ bites.map (Bite.mark now)) =
      Bite.garbageSince now (start? marks) bites := by
  induction bites generalizing marks with
  | nil => rw [List.map_nil, List.append_nil, Bite.garbageSince]
  | cons b rest ih =>
    have hrest := ih (marks ++ [b.mark now])
    rw [List.append_assoc, List.singleton_append] at hrest
    rw [List.map_cons, hrest]
    cases b with
    | accept eaten writes => rw [Bite.mark, start?_concat_cleared, Bite.garbageSince]
    | drop fault => rw [Bite.mark, start?_concat_dropped, Bite.garbageSince]

end Reacquisition

/-! ### Garbage within one cycle -/

namespace Bite

variable {now : Duration} {since : Option Duration} {bites : List Bite}

/-- Garbage of the present cycle alone is no older than that. -/
theorem garbageSince_fresh (h : since = none ∨ since = some now) :
    garbageSince now since bites = none ∨ garbageSince now since bites = some now := by
  induction bites generalizing since with
  | nil => exact h
  | cons b rest ih =>
    cases b with
    | accept eaten writes => exact ih (.inl rfl)
    | drop fault =>
      have hnow : since.getD now = now := by
        rcases h with rfl | rfl <;> rfl
      exact ih (.inr (congrArg some hnow))

/-- An accepted envelope clears all older garbage. -/
theorem garbageSince_of_accepted (h : accepted bites ≠ []) :
    garbageSince now since bites = none ∨ garbageSince now since bites = some now := by
  induction bites generalizing since with
  | nil => exact absurd rfl h
  | cons b rest ih =>
    cases b with
    | accept eaten writes =>
      have hrest : garbageSince now none rest = none ∨ garbageSince now none rest = some now :=
        garbageSince_fresh (.inl rfl)
      exact hrest
    | drop fault => exact ih h

end Bite

/-- A cycle that accepts an envelope does not drop its input. -/
theorem Link.reacquires_of_accepted {link : Link} (h : Bite.accepted link.bites ≠ [])
    (now : Duration) : link.reacquires now = false := by
  have hsince : (link.eaten now).garbageSince = none ∨ (link.eaten now).garbageSince = some now :=
    Bite.garbageSince_of_accepted h
  rcases hsince with hnone | hnow
  · exact reacquires_of_no_garbage hnone
  · unfold reacquires reacquireDue
    rw [hnow]
    split
    · next after since _ hsince =>
      cases hsince
      have hnot : ¬ after < now.since now := by
        intro hlt
        have hnanos : after.nanos < now.nanos - now.nanos := hlt
        omega
      exact decide_eq_false hnot
    · rfl

/-! ### What eating leaves -/

namespace Protocol

variable {p : Protocol} {input : Bytes}

/-- No bite is possible only if nothing is left, or if eating asks for more. -/
theorem insufficient_of_bite?_none (h : p.bite? input = none) :
    input = [] ∨ ∃ needed available, (p.eat input).2 = .error (.insufficient needed available) := by
  by_cases hinput : input = []
  · exact .inl hinput
  · right
    cases hout : (p.eat input).2 with
    | ok eaten => simp [bite?, hinput, hout] at h
    | error fault =>
      cases fault with
      | insufficient needed available => exact ⟨needed, available, rfl⟩
      | unknownMagic => simp [bite?, hinput, hout] at h
      | signatureMismatch => simp [bite?, hinput, hout] at h

/-- What cannot be eaten for want of more is shorter than some envelope. -/
theorem shorter_of_bite?_none (h : p.bite? input = none) (hne : p.envelopes ≠ []) :
    ∃ e ∈ p.envelopes, input.length < e.size := by
  obtain ⟨first, rest, hp⟩ := List.exists_cons_of_ne_nil hne
  have hfirst : first ∈ p.envelopes := hp ▸ List.mem_cons_self
  rcases insufficient_of_bite?_none h with rfl | ⟨needed, available, hout⟩
  · exact ⟨first, hfirst, first.size_pos⟩
  · rcases p.eat_cases input with ⟨hshort, -⟩ | ⟨-, -, heq⟩ | ⟨i, e, -, -, he, heq⟩
    · refine ⟨first, hfirst, ?_⟩
      have hmagic : p.magicSize = first.header.magic.length := by rw [magicSize, hp]
      have hsize : first.size = first.header.magic.length + Packet.totalSize first.packets := rfl
      omega
    · rw [heq] at hout
      cases hout
    · rw [heq] at hout
      have hdecode := Packet.decode_insufficient_iff.mp (Packet.map_error_iff.mp hout)
      exact ⟨e, List.mem_of_getElem? he, hdecode.1⟩

end Protocol

namespace Link

/-- A link is set up only with a protocol that has envelopes. -/
theorem envelopes_of_new {protocol : Protocol} {settings : Settings} {entropy : Entropy}
    {link : Link} (h : Link.new protocol settings entropy = .ok link) :
    protocol.envelopes ≠ [] := by
  intro hnone
  have hverify : protocol.verify = .error .noEnvelopes := by rw [Protocol.verify, hnone]
  simp only [Link.new, verify, hverify] at h
  cases h

/-- The link after it has eaten in a cycle, before any timer is looked at. -/
def sated (link : Link) (cells : Cells) (now : Duration) : Link := (link.eatInput cells now).1

/-- A link that has eaten is the link after its bites. -/
theorem sated_eq (link : Link) (cells : Cells) (now : Duration) :
    link.sated cells now = link.afterBites now link.chewed.1 link.bites :=
  congrArg Prod.fst (eatSteps_eq now link.input.length link cells [])

/-- Eating does not change how envelopes are read. -/
theorem readers_sated (link : Link) (cells : Cells) (now : Duration) :
    (link.sated cells now).protocol.readers = link.protocol.readers := by
  rw [sated_eq]
  exact link.protocol.readers_chew _ _

/-- A link eats until its protocol asks for more. -/
theorem bite?_sated (link : Link) (cells : Cells) (now : Duration) :
    (link.sated cells now).protocol.bite? (link.sated cells now).input = none := by
  rw [Protocol.bite?_congr (link.readers_sated cells now), sated_eq]
  exact link.protocol.bite?_chew (Nat.le_refl _)

end Link

/-! ### What a link remembers of garbage -/

namespace Site

variable {s t : Site} {c : CycleLog} {before : List CycleLog}

/-- A cycle reports that it dropped its input exactly if it did. -/
theorem Cycles.any_isReacquired (h : s.Cycles c t) :
    c.events.any LinkEvent.isReacquired = s.link.reacquires c.now := by
  rw [Bool.eq_iff_iff, List.any_eq_true, ← List.countP_pos_iff, h.countP_reacquired]
  cases s.link.reacquires c.now <;> decide

/-- A link that knows since when there is garbage knows it after eating, too. -/
theorem Cycles.garbageSince_eaten (h : s.Cycles c t)
    (hstart : Reacquisition.start? (before.flatMap CycleLog.marks) = s.link.garbageSince) :
    Reacquisition.start? (before.flatMap CycleLog.marks ++ c.eatingMarks) =
      (s.link.eaten c.now).garbageSince := by
  rw [CycleLog.eatingMarks, Reacquisition.start?_append_bites, hstart, h.bites]
  rfl

/-- A cycle keeps what the link remembers of garbage up to date. -/
theorem Cycles.garbageSince (h : s.Cycles c t)
    (hstart : Reacquisition.start? (before.flatMap CycleLog.marks) = s.link.garbageSince) :
    Reacquisition.start? ((before ++ [c]).flatMap CycleLog.marks) = t.link.garbageSince := by
  have heaten := h.garbageSince_eaten hstart
  have hlink := congrArg Link.garbageSince h.link
  simp only [Link.intake] at hlink
  rw [hlink, List.flatMap_append, List.flatMap_singleton, CycleLog.marks, h.any_isReacquired,
    ← List.append_assoc]
  cases s.link.reacquires c.now with
  | true => rw [if_pos rfl, if_pos rfl, Reacquisition.start?_concat_cleared]
  | false => rw [if_neg Bool.false_ne_true, if_neg Bool.false_ne_true, List.append_nil, heaten]

/-- However a link is run, it remembers since when there is garbage. -/
theorem Run.garbageSince {actions : List Action} {log : Log} (h : s.Run actions log t)
    (hstart : s.link.garbageSince = none) :
    Reacquisition.start? (log.cycles.flatMap CycleLog.marks) = t.link.garbageSince := by
  apply h.of_cycles (I := fun cycles link =>
    Reacquisition.start? (cycles.flatMap CycleLog.marks) = link.garbageSince)
  · exact hstart.symm
  · intro cycles link input inputNoise hlink
    exact hlink
  · intro before c u v hc hlink
    exact hc.garbageSince hlink

/-- A link that remembers since when there is garbage reacquires when it is due. -/
theorem Cycles.reacquires_iff_due (h : s.Cycles c t)
    (hstart : Reacquisition.start? (before.flatMap CycleLog.marks) = s.link.garbageSince) :
    s.link.reacquires c.now = true ↔
      Reacquisition.Due s.link.settings.reacquireAfter before c := by
  have hsettings : (s.link.eaten c.now).settings = s.link.settings := rfl
  unfold Reacquisition.Due
  rw [h.garbageSince_eaten hstart, Link.reacquires, Link.reacquireDue, hsettings]
  constructor
  · intro hdue
    split at hdue
    · next a g ha hg => exact ⟨a, g, ha, hg, of_decide_eq_true hdue⟩
    · cases hdue
  · rintro ⟨a, g, ha, hg, hlong⟩
    rw [ha, hg]
    exact decide_eq_true hlong

/-- What a cycle does that reports so many bytes dropped to reacquire the link. -/
structure Reacquires (p : Protocol) (s : Site) (c : CycleLog) (t : Site) (discarded : Nat) :
    Prop where
  /-- It accepted no envelope. -/
  silent : Bite.accepted c.bites = []
  /-- It dropped all that eating had left in the buffer, -/
  whole : discarded = (s.link.sated s.cells c.now).buffered
  /-- which was nothing, or what its protocol could not decide without more input, -/
  undecided : (s.link.sated s.cells c.now).input = [] ∨ ∃ needed available,
    ((s.link.sated s.cells c.now).protocol.eat (s.link.sated s.cells c.now).input).2 =
      .error (.insufficient needed available)
  /-- and so too short for some envelope. -/
  short : ∃ e ∈ p.envelopes, discarded < e.size
  /-- Nothing is left in the buffer, -/
  empty : t.link.buffered = 0
  /-- and no garbage counts any longer. -/
  afresh : t.link.garbageSince = none

/-- A cycle that reports so much dropped has dropped it, and it could not have been eaten. -/
theorem Cycles.reacquires {p : Protocol} {discarded : Nat} (h : s.Cycles c t)
    (hreaders : s.link.protocol.readers = p.readers) (hne : p.envelopes ≠ [])
    (hmem : .reacquired discarded ∈ c.events) : s.Reacquires p c t discarded := by
  obtain ⟨hdrop, hdiscarded⟩ := h.reacquired_mem_iff.mp hmem
  have hleft : (s.link.sated s.cells c.now).input = (s.link.eaten c.now).input := by
    rw [Link.sated_eq]
    rfl
  have hstop := s.link.bite?_sated s.cells c.now
  have hshort : p.bite? (s.link.eaten c.now).input = none := by
    rw [← hleft, ← hstop]
    exact Protocol.bite?_congr (hreaders.symm.trans (s.link.readers_sated s.cells c.now).symm) _
  constructor
  · by_contra haccepted
    rw [h.bites] at haccepted
    rw [Link.reacquires_of_accepted haccepted] at hdrop
    cases hdrop
  · rw [hdiscarded, Link.buffered, hleft]
  · exact Protocol.insufficient_of_bite?_none hstop
  · rw [hdiscarded]
    exact Protocol.shorter_of_bite?_none hshort hne
  · rw [Link.buffered, h.input_eq, hdrop]
    rfl
  · have hlink := congrArg Link.garbageSince h.link
    rw [hlink, Link.intake, hdrop]
    rfl

end Site

/-- A cycle reports that the link reacquired exactly if garbage has then lasted for too long, and
at most once. It accepted nothing then, and it dropped what was left in the buffer, which was too
little to be eaten. Garbage counts afresh from then on. -/
theorem reacquired_when_garbage_lasts {protocol : Protocol} {settings : Settings}
    {entropy : Entropy} {link : Link} {cells : Cells} {actions : List Action} {log : Log}
    {s t : Site} {now : Duration} {c : CycleLog}
    (hnew : Link.new protocol settings entropy = .ok link)
    (h : Site.Run ⟨link, cells⟩ actions log s)
    (hcycle : s.step? (.cycle now) = some (.cycled c, t)) :
    ((∃ discarded, .reacquired discarded ∈ c.events) ↔
      Reacquisition.Due settings.reacquireAfter log.cycles c) ∧
    c.events.countP LinkEvent.isReacquired ≤ 1 ∧
    ∀ discarded, .reacquired discarded ∈ c.events →
      s.Reacquires protocol c t discarded ∧
        Reacquisition.start? ((log.cycles ++ [c]).flatMap CycleLog.marks) = none := by
  have hfresh := Link.Fresh.of_new hnew
  have hsettings : s.link.settings = settings := h.settings.trans hfresh.settings
  have hreaders : s.link.protocol.readers = protocol.readers := hfresh.protocol ▸ h.readers
  have hstart := h.garbageSince hfresh.garbageSince
  cases Site.Step.of_step? hcycle with
  | cycle _ _ hc =>
    refine ⟨?_, ?_, ?_⟩
    · rw [← hsettings, ← hc.reacquires_iff_due hstart]
      simp only [hc.reacquired_mem_iff, exists_and_left, exists_eq, and_true]
    · rw [hc.countP_reacquired]
      exact Bool.toNat_le _
    · intro discarded hmem
      have hreacquires := hc.reacquires hreaders (Link.envelopes_of_new hnew) hmem
      exact ⟨hreacquires, (hc.garbageSince hstart).trans hreacquires.afresh⟩

namespace Gauge

/-- What happens until the start of an envelope has lain behind garbage for too long: the first two
steps of a busy link. -/
def lyingLog : Log := busyLog.take 2

/-- A start of an envelope behind garbage is dropped with it once the garbage has lasted for too
long. -/
theorem reacquired_when_garbage_lasts_gauge :
    ∃ s c t, Site.Run ⟨{ link with settings := impatient }, site.cells⟩
        [.feed (frame ++ [7, 0xAB]), .cycle .zero] lyingLog s ∧
      s.step? (.cycle (.ofSeconds 2 0)) = some (.cycled c, t) ∧
      Reacquisition.Due impatient.reacquireAfter lyingLog.cycles c ∧
      .reacquired 1 ∈ c.events ∧ s.Reacquires protocol c t 1 := by
  have hrun : ((Site.run? ⟨{ link with settings := impatient }, site.cells⟩
      [.feed (frame ++ [7, 0xAB]), .cycle .zero]).bind fun r =>
        (r.2.step? (.cycle (.ofSeconds 2 0))).map fun u => (r.1, u.1)) =
      some (lyingLog, .cycled ⟨.ofSeconds 2 0, [], [], [.reacquired 1], none⟩) := by
    decide +kernel
  obtain ⟨⟨log, s⟩, hrun, hstep⟩ := Option.bind_eq_some_iff.mp hrun
  obtain ⟨⟨e, t⟩, hcycle, heq⟩ := Option.map_eq_some_iff.mp hstep
  obtain ⟨rfl, rfl⟩ := Prod.mk.inj heq
  obtain ⟨hdue, -, hdropped⟩ :=
    reacquired_when_garbage_lasts new_impatient (Site.Run.of_run? hrun) hcycle
  have hmem : LinkEvent.reacquired 1 ∈ [LinkEvent.reacquired 1] := List.mem_cons_self
  exact ⟨s, _, t, .of_run? hrun, hcycle, hdue.mp ⟨1, hmem⟩, hmem, (hdropped 1 hmem).1⟩

end Gauge

end DataLink
