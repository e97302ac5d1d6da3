import DataLink.Proofs.Magics
import DataLink.Proofs.Run
import DataLink.Proofs.Windows
import Mathlib.Data.List.Forall2

/-!
# What a link assigns

Everything a link assigns to cells comes from windows of the bytes that arrived or from
failsafe. The windows of a run are collected cycle by cycle, along with the place in the stream
from which the buffer goes on.
-/

namespace DataLink

/-- The windows of a run, cycle by cycle. They are the accepted envelopes. They are genuine,
follow one another in the stream without overlap, and account for all that the link assigned. -/
structure Account (p : Protocol) (log : Log) (windows : List (List Window)) : Prop where
  accepted : windows.flatten.map Window.eaten = log.accepted
  placed : ∀ w ∈ windows.flatten, w.In log.stream
  genuine : ∀ w ∈ windows.flatten, w.Genuine p
  ordered : windows.flatten.Pairwise fun v w => v.stop ≤ w.start
  writes : List.Forall₂
    (fun c ws => c.writes = ws.flatMap (Window.writes p) ++
      if .failsafe ∈ c.events then p.clearings else [])
    log.cycles windows

/-- Which cells failsafe clears depends only on how envelopes are read. -/
theorem Protocol.clearings_congr {p q : Protocol} (h : p.readers = q.readers) :
    p.clearings = q.clearings := by
  have hclearings (p : Protocol) :
      p.clearings = p.readers.flatMap fun r => Staged.clearings r.leaves := by
    rw [readers, List.flatMap_map]
    rfl
  rw [hclearings, hclearings, h]

/-- Failsafe assigns nothing but nil. -/
theorem Protocol.value_of_mem_clearings {p : Protocol} {w : Assignment} (h : w ∈ p.clearings) :
    w.value = none := by
  obtain ⟨e, -, hw⟩ := List.mem_flatMap.mp h
  obtain ⟨leaf, -, hw⟩ := List.mem_flatMap.mp hw
  unfold Leaf.clearings Binding.clearings Binding.writes at hw
  split at hw
  · cases hw
  · split at hw
    · rw [List.mem_singleton.mp hw]
    · cases hw

/-- A link is set up only if all magics have one length. -/
theorem Link.length_magic_of_new {protocol : Protocol} {settings : Settings} {entropy : Entropy}
    {link : Link} (h : Link.new protocol settings entropy = .ok link) :
    ∀ e ∈ protocol.envelopes, e.header.magic.length = protocol.magicSize := by
  simp only [Link.new] at h
  obtain ⟨_, hverify, -⟩ := Packet.map_ok_iff.mp h
  unfold Link.verify at hverify
  split at hverify
  · cases hverify
  · next hprotocol =>
    unfold Protocol.verify at hprotocol
    split at hprotocol
    · cases hprotocol
    · intro e he
      exact (Protocol.checkSizes_eq_ok_iff.mp hprotocol e he).1

/-- A cycle assigns what its bites assign, and then nil on failsafe. -/
theorem Site.Cycles.writes_eq {s t : Site} {c : CycleLog} (h : s.Cycles c t) :
    c.writes = c.bites.flatMap Bite.writes ++
      if .failsafe ∈ c.events then s.link.protocol.clearings else [] := by
  have hclearings : s.link.chewed.1.clearings = s.link.protocol.clearings :=
    Protocol.clearings_congr (s.link.protocol.readers_chew _ _)
  rw [h.writes, h.bites, Link.intake, hclearings]
  simp only [h.failsafe_mem_iff]

/-- What a run has taken from the stream so far, besides its account: the buffer is a later
part of the stream than all windows. -/
structure Progress (p : Protocol) (log : Log) (link : Link) (windows : List (List Window))
    (place : Nat) : Prop where
  account : Account p log windows
  place_le : place ≤ log.stream.length
  input : link.input = log.stream.drop place
  stop_le : ∀ w ∈ windows.flatten, w.stop ≤ place

namespace Progress

variable {p : Protocol} {log : Log} {link : Link} {windows : List (List Window)} {place : Nat}
  {s t : Site} {c : CycleLog}

/-- Bytes that arrive are behind all windows. -/
theorem feed (h : Progress p log link windows place) (bytes : Bytes) :
    Progress p (log ++ [.arrived (link.arriving bytes)]) (link.feed bytes) windows place := by
  have hplace := h.place_le
  refine ⟨⟨?_, ?_, h.account.genuine, h.account.ordered, ?_⟩, ?_, ?_, h.stop_le⟩
  · simpa using h.account.accepted
  · intro w hw
    rw [Log.stream_concat]
    exact (h.account.placed w hw).append _
  · simpa using h.account.writes
  · simp only [Log.stream_concat, List.length_append]
    omega
  · rw [Link.feed_eq, Log.stream_concat, List.drop_append_of_le_length hplace]
    exact congrArg (· ++ link.arriving bytes) h.input

/-- A cycle goes on where the windows ended, and drops what it could not eat or keeps it. -/
theorem cycle (h : Progress p log s.link windows place)
    (hmagic : ∀ e ∈ p.envelopes, e.header.magic.length = p.magicSize)
    (hreaders : s.link.protocol.readers = p.readers) (hc : s.Cycles c t) :
    ∃ more later, Progress p (log ++ [.cycled c]) t.link (windows ++ [more]) later := by
  have hstream : log.stream.take place ++ s.link.input = log.stream := by
    rw [h.input, List.take_append_drop]
  have hplace : (log.stream.take place).length = place := by
    rw [List.length_take, Nat.min_eq_left h.place_le]
  have heats := hc.eats.1.congr hreaders
  obtain ⟨hmem, hordered, hwrites, haccepted⟩ := heats.windows hmagic (log.stream.take place)
  rw [hplace, hstream] at hmem
  rw [hplace] at hordered hwrites haccepted
  have htotal : place + Bite.total c.bites ≤ log.stream.length := by
    have hle := heats.rest_eq.2
    have hbuffered := congrArg List.length h.input
    have hplace_le := h.place_le
    rw [List.length_drop] at hbuffered
    omega
  have hstop : ∀ w ∈ windows.flatten, ∀ w' ∈ Bite.windows place s.link.input c.bites,
      w.stop ≤ w'.start := by
    intro w hw w' hw'
    exact Nat.le_trans (h.stop_le w hw) (hmem w' hw').2.2.1
  have haccount : Account p (log ++ [.cycled c])
      (windows ++ [Bite.windows place s.link.input c.bites]) := by
    have hsame : (log ++ [Entry.cycled c] : Log).stream = log.stream := by simp
    refine ⟨?_, ?_, ?_, ?_, ?_⟩
    · rw [List.flatten_append, List.flatten_singleton, List.map_append, h.account.accepted,
        haccepted, Log.accepted_concat, Entry.bites]
    · rw [hsame, List.flatten_append, List.flatten_singleton, List.forall_mem_append]
      exact ⟨h.account.placed, fun w hw => (hmem w hw).1⟩
    · rw [List.flatten_append, List.flatten_singleton, List.forall_mem_append]
      exact ⟨h.account.genuine, fun w hw => (hmem w hw).2.1⟩
    · rw [List.flatten_append, List.flatten_singleton]
      exact List.pairwise_append.mpr ⟨h.account.ordered, hordered, hstop⟩
    · rw [Log.cycles_concat]
      refine List.rel_append h.account.writes (.cons ?_ .nil)
      rw [hc.writes_eq, hwrites, Protocol.clearings_congr hreaders]
  have hbehind (later : Nat) (hlater : place + Bite.total c.bites ≤ later) :
      ∀ w ∈ (windows ++ [Bite.windows place s.link.input c.bites]).flatten, w.stop ≤ later := by
    rw [List.flatten_append, List.flatten_singleton, List.forall_mem_append]
    constructor
    · intro w hw
      have hstop := h.stop_le w hw
      omega
    · intro w hw
      obtain ⟨-, -, -, hstop⟩ := hmem w hw
      omega
  have hinput := hc.input_eq
  cases hdrop : s.link.reacquires c.now with
  | true =>
    rw [hdrop, if_pos rfl] at hinput
    refine ⟨_, log.stream.length, haccount, ?_, ?_, hbehind _ htotal⟩
    · simp
    · simp [hinput]
  | false =>
    rw [hdrop, if_neg Bool.false_ne_true, h.input, List.drop_drop] at hinput
    refine ⟨_, place + Bite.total c.bites, haccount, ?_, ?_, hbehind _ (Nat.le_refl _)⟩
    · simpa using htotal
    · simpa using hinput

end Progress

/-- However a link is run, windows of what arrived account for what it assigned. -/
theorem Site.Run.progress {s t : Site} {actions : List Action} {log : Log}
    (h : s.Run actions log t) (hempty : s.link.input = [])
    (hmagic : ∀ e ∈ s.link.protocol.envelopes,
      e.header.magic.length = s.link.protocol.magicSize) :
    ∃ windows place, Progress s.link.protocol log t.link windows place := by
  induction h with
  | start =>
    refine ⟨[], 0, ⟨⟨rfl, ?_, ?_, ?_, .nil⟩, Nat.zero_le _, hempty, ?_⟩⟩ <;> simp
  | step run last ih =>
    obtain ⟨windows, place, hprogress⟩ := ih
    cases Step.of_step? last with
    | feed bytes => exact ⟨windows, place, hprogress.feed bytes⟩
    | discard =>
      refine ⟨windows, _, ⟨⟨?_, ?_, hprogress.account.genuine, hprogress.account.ordered, ?_⟩,
        Nat.le_refl _, ?_, ?_⟩⟩
      · simpa using hprogress.account.accepted
      · simpa using hprogress.account.placed
      · simpa using hprogress.account.writes
      · simp [Link.discardInput]
      · intro w hw
        have hstop := hprogress.stop_le w hw
        have hplace := hprogress.place_le
        simp only [Log.stream_concat, Entry.stream, List.append_nil]
        omega
    | assign write =>
      refine ⟨windows, place, ⟨⟨?_, ?_, hprogress.account.genuine, hprogress.account.ordered, ?_⟩,
        ?_, ?_, hprogress.stop_le⟩⟩
      · simpa using hprogress.account.accepted
      · simpa using hprogress.account.placed
      · simpa using hprogress.account.writes
      · simpa using hprogress.place_le
      · simpa using hprogress.input
    | cycle c u hc =>
      obtain ⟨more, later, hlater⟩ := hprogress.cycle hmagic run.readers hc
      exact ⟨_, later, hlater⟩

/-- Rejected data never reaches a cell. In every run, what the link assigns to cells is what
genuine windows of the arrived bytes give, each eaten alone, apart from nil on failsafe. The
cells change through assignments only. -/
theorem assigned_from_windows {protocol : Protocol} {settings : Settings} {entropy : Entropy}
    {link : Link} {cells : Cells} {actions : List Action} {log : Log} {t : Site}
    (hnew : Link.new protocol settings entropy = .ok link)
    (h : Site.Run ⟨link, cells⟩ actions log t) :
    (∃ windows, Account protocol log windows) ∧
      (∀ w ∈ protocol.clearings, w.value = none) ∧
      log.linkWrites = log.cycles.flatMap CycleLog.writes ∧
      t.cells = cells.replay log.writes := by
  have hfresh := Link.Fresh.of_new hnew
  have hmagic := Link.length_magic_of_new hnew
  rw [← hfresh.protocol] at hmagic
  obtain ⟨windows, place, hprogress⟩ := h.progress hfresh.input hmagic
  rw [hfresh.protocol] at hprogress
  exact ⟨⟨windows, hprogress.account⟩, fun _ => Protocol.value_of_mem_clearings,
    log.linkWrites_eq, h.cells⟩

namespace Gauge

/-- The start of an envelope is discarded; then garbage and an envelope arrive. -/
def spoiltLog : Log :=
  [.arrived [0xAB, 9], .cycled ⟨.zero, [], [], [], none⟩, .discarded 2, .arrived (7 :: frame),
    .cycled
      { now := .zero
        bites := [.drop .unknownMagic, .accept ⟨0, 3⟩ [⟨"level", some (.unsigned 258)⟩]]
        writes := [⟨"level", some (.unsigned 258)⟩]
        events := [.acquired]
        output := none }]

/-- Half an envelope is discarded, a stray byte is dropped, and the envelope behind it is the only
window. -/
theorem assigned_from_windows_gauge :
    ∃ t, site.Run [.feed [0xAB, 9], .cycle .zero, .discard, .feed (7 :: frame), .cycle .zero]
        spoiltLog t ∧
      ∃ windows, Account protocol spoiltLog windows := by
  have hrun : ∃ t, site.run?
      [.feed [0xAB, 9], .cycle .zero, .discard, .feed (7 :: frame), .cycle .zero] =
        some (spoiltLog, t) := ⟨_, rfl⟩
  obtain ⟨t, hrun⟩ := hrun
  exact ⟨t, .of_run? hrun, (assigned_from_windows new_eq (Site.Run.of_run? hrun)).1⟩

end Gauge

end DataLink
