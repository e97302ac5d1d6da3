import DataLink.Proofs.Channel
import DataLink.Proofs.HexText
import DataLink.Proofs.RunAccess
import Mathlib.Logic.Function.Iterate

/-!
# Decoding what was encoded

Encoding takes turns of a bare protocol, one after the other. Decoding sets up a link for the same
layout, feeds it everything at once and runs a single cycle at time zero. The settings of that link
may come between the two: if they let its input be spoiled, the link does not see what was printed.
Nothing else that they may say matters at time zero.
-/

namespace DataLink

/-! ### Several turns -/

namespace Protocol

/-- The envelopes emitted on the next turns, in wire order. -/
def emitted (p : Protocol) (turns : Nat) : List (Envelope × Nat) :=
  (List.range turns).flatMap fun k => (Protocol.advance^[k] p).due

/-- The leaves emitted on the next turns, in wire order. -/
def carried (p : Protocol) (turns : Nat) : List Leaf :=
  (p.emitted turns).flatMap fun e => e.1.leaves

/-- What is emitted on the next turns for cells that stay, frame by frame. -/
def framesOf (p : Protocol) (cells : Cells) (turns : Nat) : List Frame :=
  (List.range turns).flatMap fun k => (Protocol.advance^[k] p).frames cells

/-- There are as many frames as envelopes that are emitted. -/
theorem length_framesOf (p : Protocol) (cells : Cells) (turns : Nat) :
    (p.framesOf cells turns).length = (p.emitted turns).length := by
  simp only [framesOf, emitted, List.length_flatMap, length_frames]

/-- Every turn of a protocol is reached from it. -/
theorem reaches_iterate_advance (p : Protocol) (turns : Nat) :
    p.Reaches (Protocol.advance^[turns] p) := by
  induction turns with
  | zero => exact .start
  | succ turns ih =>
    rw [Function.iterate_succ_apply']
    exact ih.advance

end Protocol

namespace Command

end Command

namespace Layout.Ends

variable {tx rx : Layout} {cells : Cells} {turns : Nat}

/-- The receiver reads what is emitted on any turn. -/
theorem readBy (h : tx.Ends rx) :
    ∀ f ∈ tx.protocol.framesOf cells turns, f.ReadBy rx.protocol := by
  intro f hf
  obtain ⟨k, -, hf⟩ := List.mem_flatMap.mp hf
  have hreaches := tx.protocol.reaches_iterate_advance k
  have hmirrors := Protocol.mirrors_of_forall₂ h.mirrors.envelopes
  constructor
  · rw [Protocol.sender_of_mem_frames hf]
    exact hreaches.plain (Protocol.plain_of_mirrors h.mirrors.envelopes)
  · rw [Protocol.sender_of_mem_frames hf]
    exact hmirrors.congr hreaches.readers.symm rfl

/-- What the receiver assigns is what the emitted leaves tell. -/
theorem relays_framesOf (h : tx.Ends rx) :
    ((tx.protocol.framesOf cells turns).flatMap fun f => f.relays rx.protocol) =
      (tx.protocol.carried turns).flatMap fun leaf => leaf.relays cells := by
  rw [Protocol.framesOf, Protocol.carried, Protocol.emitted, List.flatMap_assoc,
    List.flatMap_assoc, List.flatMap_assoc]
  refine List.flatMap_congr fun k _ => ?_
  have hreaches := tx.protocol.reaches_iterate_advance k
  rw [Protocol.relays_frames, h.relays hreaches.readers rfl, List.flatMap_assoc]

/-- The receiver has cells for all emitted leaves. -/
theorem kind_carried (h : tx.Ends rx) :
    ∀ leaf ∈ tx.protocol.carried turns, rx.cells.kind? leaf.binding.cell = some leaf.kind := by
  intro leaf hleaf
  obtain ⟨e, he, hleaf⟩ := List.mem_flatMap.mp hleaf
  obtain ⟨k, -, he⟩ := List.mem_flatMap.mp he
  exact h.kind (tx.protocol.reaches_iterate_advance k).readers he hleaf

end Layout.Ends

/-- Seconds are made a duration only if it can be represented. -/
theorem Duration.nanos_lt_of_ofFloatSeconds? {x : Binary64} {d : Duration}
    (h : ofFloatSeconds? x = some d) : d.nanos < limit := by
  simp only [ofFloatSeconds?] at h
  split at h
  · cases h
  · split at h
    · next hlimit =>
      rw [← Option.some.inj h]
      simpa only using hlimit
    · cases h

/-- A period is short enough to follow the origin of time. -/
theorem Settings.isSome_add?_period {settings : Settings} {period : Duration}
    (h : settings.sendPeriod = some period) : (Duration.zero.add? period).isSome = true := by
  obtain ⟨hz, -, hperiod⟩ := Option.bind_eq_some_iff.mp h
  have hlimit := Duration.nanos_lt_of_ofFloatSeconds? hperiod
  rw [Duration.isSome_add?_iff]
  exact (Nat.zero_add _).symm ▸ hlimit

namespace Site

variable {s t : Site} {c : CycleLog}

/-- A cycle that accepts an envelope leaves the link valid, and silence is not reported. -/
theorem Cycles.valid_of_accepted (h : s.Cycles c t) (hne : Bite.accepted c.bites ≠ []) :
    t.link.isValid = true ∧ t.link.stats.failsafes = s.link.stats.failsafes := by
  rw [h.bites] at hne
  have hfails := Link.fails_of_accepted hne c.now
  have hempty : (Bite.accepted s.link.bites).isEmpty = false := List.isEmpty_eq_false_iff.mpr hne
  have hvalid := congrArg Link.isValid h.link
  have hstats := congrArg Link.stats h.link
  simp only [Link.intake, Link.eaten, Link.afterBites, hfails, hempty, Bool.not_false,
    Bool.or_true, Bool.and_true, Bool.toNat_false, Nat.add_zero] at hvalid hstats
  exact ⟨hvalid, by rw [hstats]⟩

end Site

namespace Link

variable {link : Link} {protocol : Protocol} {settings : Settings}

/-- Without a probability to spoil it, input arrives as it is. -/
theorem Fresh.arriving (h : link.Fresh protocol settings)
    (hquiet : settings.inputInterference.le .zero = true) (bytes : Bytes) :
    link.arriving bytes = bytes := by
  rw [Link.arriving, h.quiet hquiet]

/-- At time zero, a link that was set up runs its first cycle. -/
theorem Fresh.process_zero (h : link.Fresh protocol settings) (bytes : Bytes) (cells : Cells) :
    ∃ r, (link.feed bytes).process cells .zero = some r := by
  rw [feed_eq]
  refine Option.isSome_iff_exists.mp (Timed.process ?_ ?_ cells)
  · intro _ hstarted
    rw [h.startedAt] at hstarted
    cases hstarted
  · intro period hperiod
    exact Settings.isSome_add?_period hperiod

/-- A link that was set up takes all frames in its first cycle, if they are what arrives. -/
theorem Fresh.takes (h : link.Fresh protocol settings) {frames : List Frame} {bytes : Bytes}
    (hdistinct : protocol.Distinct) (hread : ∀ f ∈ frames, f.ReadBy protocol) (hne : frames ≠ [])
    (harrives : link.arriving bytes = Frame.stream frames) {cells : Cells} {r : CycleResult}
    (hr : (link.feed bytes).process cells .zero = some r) :
    r.link.isValid = true ∧ r.link.input = [] ∧
      r.link.stats = ⟨0, 0, 0, (Frame.stream frames).length, frames.length⟩ ∧
      r.cells = cells.replay (frames.flatMap fun f => f.relays protocol) := by
  have hinput : (link.feed bytes).input = Frame.stream frames := by
    rw [feed_eq, h.input, harrives, List.nil_append]
  have hprotocol : (link.feed bytes).protocol = protocol := by
    rw [feed_eq]
    exact h.protocol
  have hstats : (link.feed bytes).stats = ⟨0, 0, 0, 0, 0⟩ := by
    rw [feed_eq]
    exact h.stats
  have hgarbage : (link.feed bytes).garbageSince = none := by
    rw [feed_eq]
    exact h.garbageSince
  generalize link.feed bytes = fed at hr hinput hprotocol hstats hgarbage
  subst hprotocol
  have hcycle := Site.Cycles.of_process hr
  have htakes := hcycle.takes hdistinct hread hinput hgarbage
  obtain ⟨hbites, -⟩ := hcycle.eats_frames hdistinct hread hinput
  obtain ⟨hvalid, hfailsafes⟩ := hcycle.valid_of_accepted (by
    rw [hbites, Frame.accepted_bites]
    exact mt List.map_eq_nil_iff.mp hne)
  have herrors := htakes.errorBytes
  have hreacquires := htakes.reacquires
  have hbytes := htakes.validBytes
  have henvelopes := htakes.validEnvelopes
  simp only [hstats, Nat.zero_add] at hfailsafes herrors hreacquires hbytes henvelopes
  refine ⟨hvalid, htakes.input, ?_, htakes.cells hne⟩
  have hfields : r.link.stats = ⟨r.link.stats.failsafes, r.link.stats.reacquires,
      r.link.stats.errorBytes, r.link.stats.validBytes, r.link.stats.validEnvelopes⟩ := rfl
  rw [hfields, hfailsafes, hreacquires, herrors, hbytes, henvelopes]

end Link

namespace Command

end Command

namespace Beacon

/-- One turn of a transmitter that only knows the light. -/
def lit : Command.EncodeArguments := ⟨"beacon.json", ["lit=on"], 1, none⟩

end Beacon

end DataLink
