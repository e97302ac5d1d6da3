import DataLink.Proofs.Chunking
import DataLink.Proofs.Transmission

/-!
# Where the bytes go

Every byte that is fed is accepted with an envelope, dropped as garbage, dropped when the link
reacquires, discarded by the surroundings, or still buffered. The counters of the link and the
events it reports add up to what was fed, however the link is run. A byte counts as garbage only
where eating finds a fault that more input cannot mend.
-/

namespace DataLink

/-- Interference spoils bytes, but it neither adds nor removes any. -/
theorem Interference.length_disturb (i : Interference) (bytes : Bytes) :
    (i.disturb bytes).bytes.length = bytes.length := by
  unfold disturb
  split
  · rfl
  · split
    · rfl
    · exact List.length_modify _ _ _

/-- Interference neither adds bytes nor loses any. -/
theorem Link.length_arriving (link : Link) (bytes : Bytes) :
    (link.arriving bytes).length = bytes.length := by
  unfold arriving
  split
  · rfl
  · exact Interference.length_disturb _ _

/-- The bytes of which an event tells that they were dropped. -/
def LinkEvent.lost : LinkEvent → Nat
  | .reacquired discarded => discarded
  | _ => 0

/-- The bytes that the surroundings discarded. -/
def Entry.discards : Entry → Nat
  | .discarded count => count
  | _ => 0

namespace Log

/-- The bytes that were dropped to reacquire the link. -/
def lost (log : Log) : Nat := (log.events.map LinkEvent.lost).sum

/-- The bytes that the surroundings discarded. -/
def discards (log : Log) : Nat := (log.map Entry.discards).sum

/-- One more entry adds what its events have dropped. -/
@[simp] theorem lost_concat (log : Log) (e : Entry) :
    lost (log ++ [e]) = log.lost + (e.events.map LinkEvent.lost).sum := by simp [lost]

/-- One more entry adds what it has discarded. -/
@[simp] theorem discards_concat (log : Log) (e : Entry) :
    discards (log ++ [e]) = log.discards + e.discards := by simp [discards]

end Log

/-! ### Bytes in and out of the buffer -/

namespace Bite

/-- Bites one after the other take as many bytes as they take together. -/
@[simp] theorem total_append (first second : List Bite) :
    total (first ++ second) = total first + total second := by
  simp only [total, List.map_append, List.sum_append]

/-- Bites take what they accept and what they drop. -/
theorem total_eq (bites : List Bite) : total bites = acceptedBytes bites + drops bites := by
  induction bites with
  | nil => rfl
  | cons b rest ih =>
    rw [total_cons, ih]
    cases b with
    | accept eaten writes =>
      simp only [length, acceptedBytes, accepted_accept, drops_accept, List.map_cons, List.sum_cons]
      omega
    | drop fault =>
      simp only [length, acceptedBytes, accepted_drop, drops_drop]
      omega

end Bite

namespace Site

/-- The events of a cycle tell of the buffered input exactly if it was dropped. -/
theorem Cycles.lost_eq {s t : Site} {c : CycleLog} (h : s.Cycles c t) :
    (c.events.map LinkEvent.lost).sum =
      if s.link.reacquires c.now then (s.link.eaten c.now).input.length else 0 := by
  obtain ⟨sent, hevents, hsent⟩ := h.events
  have hnone : (sent.map LinkEvent.lost).sum = 0 := by
    rw [List.sum_eq_zero_iff_forall_eq_nat]
    intro n hn
    obtain ⟨e, he, rfl⟩ := List.mem_map.mp hn
    obtain ⟨bytes, rfl⟩ := hsent e he
    rfl
  have hone (b : Bool) (e : LinkEvent) :
      ((if b = true then [e] else []).map LinkEvent.lost).sum = if b then e.lost else 0 := by
    cases b <;> simp
  rw [hevents, List.map_append, List.sum_append, hnone, Nat.add_zero]
  simp only [Link.intake, List.map_append, List.sum_append, hone, LinkEvent.lost, ite_self,
    Nat.zero_add, Nat.add_zero]

/-- What was buffered before a cycle is eaten in it, dropped, or still buffered after it. -/
theorem Cycles.conserves {s t : Site} {c : CycleLog} (h : s.Cycles c t) :
    s.link.input.length =
      Bite.total c.bites + (c.events.map LinkEvent.lost).sum + t.link.input.length := by
  have hle := h.eats.1.rest_eq.2
  have hleft : (s.link.eaten c.now).input = s.link.input.drop (Bite.total c.bites) := by
    rw [h.bites]
    rfl
  rw [h.lost_eq, h.input_eq, hleft]
  cases s.link.reacquires c.now with
  | true =>
    rw [if_pos rfl, if_pos rfl, List.length_drop, List.length_nil]
    omega
  | false =>
    rw [if_neg Bool.false_ne_true, if_neg Bool.false_ne_true, List.length_drop]
    omega

namespace Run

variable {s t : Site} {actions : List Action} {log : Log}

/-- As many bytes arrive as are fed. -/
theorem length_stream (h : s.Run actions log t) :
    log.stream.length = (actions.flatMap Action.fed).length := by
  induction h with
  | start => rfl
  | step _ last ih =>
    rw [Log.stream_concat, List.flatMap_append, List.flatMap_singleton, List.length_append,
      List.length_append, ih]
    congr 1
    cases Step.of_step? last with
    | feed bytes => exact Link.length_arriving _ _
    | discard => rfl
    | assign write => rfl
    | cycle c t hc => rfl

/-- What was buffered at first and what arrived is eaten, dropped, discarded or still buffered. -/
theorem conserves (h : s.Run actions log t) :
    s.link.input.length + log.stream.length =
      Bite.total log.bites + log.lost + log.discards + t.link.input.length := by
  induction h with
  | start => simp [Log.stream, Log.bites, Log.lost, Log.events, Log.discards]
  | step _ last ih =>
    rw [Log.stream_concat, Log.bites_concat, Log.lost_concat, Log.discards_concat,
      List.length_append, Bite.total_append]
    cases Step.of_step? last with
    | feed bytes =>
      rw [Link.feed_eq, List.length_append]
      simp only [Entry.stream, Entry.bites, Entry.events, Entry.discards, List.map_nil,
        List.sum_nil, Bite.total_nil]
      omega
    | discard =>
      simp only [Entry.stream, Entry.bites, Entry.events, Entry.discards, List.map_nil,
        List.sum_nil, List.length_nil, Bite.total_nil, Link.discardInput, Link.buffered]
      omega
    | assign write =>
      simp only [Entry.stream, Entry.bites, Entry.events, Entry.discards, List.map_nil,
        List.sum_nil, List.length_nil, Bite.total_nil]
      omega
    | cycle c t hc =>
      have hcycle := hc.conserves
      simp only [Entry.stream, Entry.bites, Entry.events, Entry.discards, List.length_nil]
      omega

/-- What is buffered is the end of what arrived. -/
theorem input_suffix (h : s.Run actions log t) (hempty : s.link.input = []) :
    t.link.input <:+ log.stream := by
  induction h with
  | start => rw [hempty]; exact List.nil_suffix
  | step _ last ih =>
    rw [Log.stream_concat]
    cases Step.of_step? last with
    | feed bytes =>
      obtain ⟨before, hbefore⟩ := ih
      rw [Link.feed_eq]
      exact ⟨before, by rw [← hbefore, List.append_assoc]; rfl⟩
    | discard => exact List.nil_suffix
    | assign write => simpa using ih
    | cycle c t hc =>
      rw [hc.input_eq]
      simp only [Entry.stream, List.append_nil]
      split
      · exact List.nil_suffix
      · exact (List.drop_suffix _ _).trans ih

end Run

end Site

/-! ### Garbage -/

/-- A byte of the stream that was dropped as garbage, and the fault that was found there. -/
structure Garbage where
  place : Nat
  fault : WireFault
  deriving DecidableEq, Repr

/-- In some cycle, eating what had arrived by then, from the place of the byte on, has this fault.
Neither what the protocol had staged nor what it had emitted matters. -/
structure Garbage.FoundIn (g : Garbage) (p : Protocol) (log : Log) : Prop where
  fault : g.fault = .unknownMagic ∨ g.fault = .signatureMismatch
  cycle : ∃ (earlier : Log) (c : CycleLog), earlier ++ [.cycled c] <+: log ∧
    .drop g.fault ∈ c.bites ∧ ∀ q, p.Reaches q →
      (q.eat (earlier.stream.drop g.place)).2 = .error g.fault

/-- Garbage that was found stays found, whatever happens later. -/
theorem Garbage.FoundIn.mono {g : Garbage} {p : Protocol} {log more : Log} (h : g.FoundIn p log)
    (hpref : log <+: more) : g.FoundIn p more := by
  obtain ⟨earlier, c, hearlier, hdrop, heat⟩ := h.cycle
  exact ⟨h.fault, earlier, c, hearlier.trans hpref, hdrop, heat⟩

/-- The garbage that bites drop, from a place in the stream on. -/
def Bite.garbage : Nat → List Bite → List Garbage
  | _, [] => []
  | place, .accept eaten _ :: rest => garbage (place + eaten.consumed) rest
  | place, .drop fault :: rest => ⟨place, fault⟩ :: garbage (place + 1) rest

/-- There are as many pieces of garbage as bytes that were dropped. -/
theorem Bite.length_garbage (place : Nat) (bites : List Bite) :
    (garbage place bites).length = drops bites := by
  induction bites generalizing place with
  | nil => rfl
  | cons b rest ih =>
    cases b with
    | accept eaten writes => rw [garbage, drops_accept, ih]
    | drop fault => rw [garbage, drops_drop, List.length_cons, ih]

/-- What bites accept has the size of its envelope. -/
theorem Protocol.Eats.consumed_eq {p : Protocol} {input rest : Bytes} {bites : List Bite}
    (h : p.Eats input bites rest) :
    ∀ eaten ∈ Bite.accepted bites, ∃ e, p.envelopes[eaten.envelope]? = some e ∧
      eaten.consumed = e.size := by
  induction h with
  | nothing input => simp
  | @bite input rest b bites first others ih =>
    cases b with
    | drop fault => exact ih
    | accept eaten writes =>
      obtain ⟨-, hok, -⟩ := bite?_eq_accept_iff.mp first
      obtain ⟨e, he, -, -, hdecode, -⟩ := eat_ok hok
      rw [Bite.accepted_accept]
      exact List.forall_mem_cons.mpr ⟨⟨e, he, (Packet.decode_ok hdecode).1⟩, ih⟩

/-- Garbage is found one byte after the other, where eating has a fault that more input does
not mend. -/
theorem Protocol.Eats.garbage {p : Protocol} {input rest : Bytes} {bites : List Bite}
    (h : p.Eats input bites rest) (before : Bytes) :
    (Bite.garbage before.length bites).Pairwise (fun g g' => g.place < g'.place) ∧
    ∀ g ∈ Bite.garbage before.length bites,
      before.length ≤ g.place ∧ g.place < before.length + Bite.total bites ∧
        .drop g.fault ∈ bites ∧ (p.eat ((before ++ input).drop g.place)).2 = .error g.fault ∧
        (g.fault = .unknownMagic ∨ g.fault = .signatureMismatch) := by
  induction h generalizing before with
  | nothing input => simp [Bite.garbage]
  | @bite input rest b bites first others ih =>
    obtain ⟨hpos, hle⟩ := bite?_length first
    have htake : (input.take b.length).length = b.length := by
      rw [List.length_take, Nat.min_eq_left hle]
    -- The induction hypothesis is about the stream with what the bite takes moved to its front.
    have hothers := ih (before ++ input.take b.length)
    rw [List.append_assoc, List.take_append_drop, List.length_append, htake] at hothers
    obtain ⟨hordered, hmem⟩ := hothers
    have hlater : ∀ g ∈ Bite.garbage (before.length + b.length) bites,
        before.length ≤ g.place ∧ g.place < before.length + Bite.total (b :: bites) ∧
          .drop g.fault ∈ b :: bites ∧
          (p.eat ((before ++ input).drop g.place)).2 = .error g.fault ∧
          (g.fault = .unknownMagic ∨ g.fault = .signatureMismatch) := by
      intro g hg
      obtain ⟨hstart, hstop, hdrop, heat⟩ := hmem g hg
      rw [Bite.total_cons]
      exact ⟨by omega, by omega, List.mem_cons_of_mem _ hdrop, heat⟩
    cases b with
    | accept eaten writes => exact ⟨hordered, hlater⟩
    | drop fault =>
      obtain ⟨-, hfault, hstays⟩ := bite?_eq_drop_iff.mp first
      have hcause : fault = .unknownMagic ∨ fault = .signatureMismatch := by
        cases fault with
        | insufficient needed available => exact absurd rfl (hstays needed available)
        | unknownMagic => exact .inl rfl
        | signatureMismatch => exact .inr rfl
      refine ⟨List.pairwise_cons.mpr ⟨?_, hordered⟩, List.forall_mem_cons.mpr ⟨?_, hlater⟩⟩
      · intro g hg
        exact (hmem g hg).1
      · refine ⟨Nat.le_refl _, ?_, List.mem_cons_self, ?_, hcause⟩
        · rw [Bite.total_cons]
          exact Nat.lt_add_of_pos_right (Nat.add_pos_left hpos _)
        · rw [List.drop_left' rfl]
          exact hfault

namespace Site.Run

variable {s t : Site} {actions : List Action} {log : Log}

/-- Every byte that is dropped as garbage has its own place in the stream, and a fault there. -/
theorem garbage (h : s.Run actions log t) (hempty : s.link.input = []) :
    ∃ garbage : List Garbage, garbage.length = Bite.drops log.bites ∧
      garbage.Pairwise (fun g g' => g.place < g'.place) ∧
      ∀ g ∈ garbage, g.place + t.link.input.length < log.stream.length ∧
        g.FoundIn s.link.protocol log := by
  induction h with
  | start => exact ⟨[], rfl, .nil, by simp⟩
  | @step actions log t u a e run last ih =>
    obtain ⟨garbage, hcount, hordered, hmem⟩ := ih
    have hpref : log <+: log ++ [e] := List.prefix_append _ _
    cases Step.of_step? last with
    | feed bytes =>
      refine ⟨garbage, by simpa using hcount, hordered, ?_⟩
      intro g hg
      obtain ⟨hplace, hfound⟩ := hmem g hg
      rw [Link.feed_eq, Log.stream_concat, List.length_append, List.length_append]
      exact ⟨by simp only [Entry.stream]; omega, hfound.mono hpref⟩
    | discard =>
      refine ⟨garbage, by simpa using hcount, hordered, ?_⟩
      intro g hg
      obtain ⟨hplace, hfound⟩ := hmem g hg
      rw [Log.stream_concat, List.length_append]
      exact ⟨by simp only [Link.discardInput, List.length_nil]; omega, hfound.mono hpref⟩
    | assign write =>
      refine ⟨garbage, by simpa using hcount, hordered, ?_⟩
      intro g hg
      obtain ⟨hplace, hfound⟩ := hmem g hg
      rw [Log.stream_concat, List.length_append]
      exact ⟨by simp only [Entry.stream, List.length_nil]; omega, hfound.mono hpref⟩
    | cycle c u hc =>
      obtain ⟨before, hbefore⟩ := run.input_suffix hempty
      have hlength := congrArg List.length hbefore
      rw [List.length_append] at hlength
      obtain ⟨hnew, hfresh⟩ := (hc.eats.1.congr run.readers).garbage before
      have hcycle := hc.conserves
      refine ⟨garbage ++ Bite.garbage before.length c.bites, ?_, ?_, ?_⟩
      · rw [List.length_append, hcount, Bite.length_garbage, Log.bites_concat, Bite.drops_append]
        rfl
      · refine List.pairwise_append.mpr ⟨hordered, hnew, ?_⟩
        intro g hg g' hg'
        have hplace := (hmem g hg).1
        have hplace' := (hfresh g' hg').1
        omega
      · rw [Log.stream_concat, List.length_append]
        refine List.forall_mem_append.mpr ⟨?_, ?_⟩
        · intro g hg
          obtain ⟨hplace, hfound⟩ := hmem g hg
          exact ⟨by omega, hfound.mono hpref⟩
        · intro g hg
          obtain ⟨-, hplace, hdrop, heat, hfault⟩ := hfresh g hg
          refine ⟨by omega, hfault, log, c, List.prefix_refl _, hdrop, ?_⟩
          intro q hq
          rw [Protocol.eat_outcome_congr hq.readers, ← hbefore, heat]

/-- What is accepted has the size of its envelope. -/
theorem consumed_eq (h : s.Run actions log t) :
    ∀ eaten ∈ log.accepted, ∃ e, s.link.protocol.envelopes[eaten.envelope]? = some e ∧
      eaten.consumed = e.size := by
  induction h with
  | start => simp [Log.accepted, Log.bites]
  | step run last ih =>
    rw [Log.accepted_concat, List.forall_mem_append]
    refine ⟨ih, ?_⟩
    cases Step.of_step? last with
    | feed bytes => simp
    | discard => simp
    | assign write => simp
    | cycle c t hc => exact (hc.eats.1.congr run.readers).consumed_eq

end Site.Run

/-- Every byte that is fed has one fate, however a link is run. It was accepted, dropped as
garbage or to reacquire the link, or discarded, or it is still buffered. The counters say so.
What is accepted has the size of its envelope, and each byte that counts as garbage has its own
place in the stream, at which eating has a fault that more input does not mend. -/
theorem bytes_conserved {protocol : Protocol} {settings : Settings} {entropy : Entropy}
    {link : Link} {cells : Cells} {actions : List Action} {log : Log} {t : Site}
    (hnew : Link.new protocol settings entropy = .ok link)
    (h : Site.Run ⟨link, cells⟩ actions log t) :
    (actions.flatMap Action.fed).length =
        t.link.stats.validBytes + t.link.stats.errorBytes + log.lost + log.discards +
          t.link.buffered ∧
      t.link.stats.validEnvelopes = log.accepted.length ∧
      t.link.stats.validBytes = (log.accepted.map Eaten.consumed).sum ∧
      (∀ eaten ∈ log.accepted, ∃ e, protocol.envelopes[eaten.envelope]? = some e ∧
        eaten.consumed = e.size) ∧
      t.link.stats.reacquires = log.events.countP LinkEvent.isReacquired ∧
      ∃ garbage : List Garbage, garbage.length = t.link.stats.errorBytes ∧
        garbage.Pairwise (fun g g' => g.place < g'.place) ∧
        ∀ g ∈ garbage, g.FoundIn protocol log := by
  have hfresh := Link.Fresh.of_new hnew
  have hconsumed := h.consumed_eq
  obtain ⟨garbage, hcount, hordered, hmem⟩ := h.garbage hfresh.input
  rw [hfresh.protocol] at hconsumed hmem
  have hstats := h.stats
  rw [hfresh.stats] at hstats
  simp only [Nat.zero_add] at hstats
  have hconserved := h.conserves
  rw [hfresh.input, List.length_nil, Nat.zero_add, h.length_stream, Bite.total_eq] at hconserved
  rw [hstats]
  exact ⟨hconserved, rfl, rfl, hconsumed, rfl, garbage, hcount, hordered,
    fun g hg => (hmem g hg).2⟩

namespace Gauge

/-- Garbage may last for one second. -/
def impatient : Settings := { Settings.default with reacquireAfter := some (.ofSeconds 1 0) }

/-- A link that waits a second for garbage to end can be set up. -/
theorem new_impatient :
    Link.new protocol impatient 0 = .ok { link with settings := impatient } := by
  have hprotocol : protocol.verify = .ok () := rfl
  have hvalid : impatient.validate = .ok () := by
    simp only [Settings.validate, impatient, Settings.default, Settings.checkProbability_zero]
    rfl
  simp only [Link.new, Link.verify, hprotocol, hvalid]
  rfl

/-- An envelope arrives, and behind it garbage and the start of another envelope, which lies for
too long. The start of a third one is discarded, and that of a fourth one waits. -/
def busy : List Action :=
  [.feed (frame ++ [7, 0xAB]), .cycle .zero, .cycle (.ofSeconds 2 0), .feed [0xAB, 9], .discard,
    .feed [0xAB]]

/-- What happens to all those bytes: three are accepted, one is garbage, one is dropped with the
buffer, two are discarded, and the last one waits. -/
def busyLog : Log :=
  [.arrived (frame ++ [7, 0xAB]),
    .cycled
      { now := .zero
        bites := [.accept ⟨0, 3⟩ [⟨"level", some (.unsigned 258)⟩], .drop .unknownMagic]
        writes := [⟨"level", some (.unsigned 258)⟩]
        events := [.acquired]
        output := none },
    .cycled ⟨.ofSeconds 2 0, [], [], [.reacquired 1], none⟩, .arrived [0xAB, 9], .discarded 2,
    .arrived [0xAB]]

/-- Of eight bytes three are accepted, one is garbage, one is dropped with the buffer, two are
discarded, and one is buffered. -/
theorem bytes_conserved_gauge :
    ∃ t, Site.Run ⟨{ link with settings := impatient }, site.cells⟩ busy busyLog t ∧
      t.link.stats = ⟨0, 1, 1, 3, 1⟩ ∧
      8 = t.link.stats.validBytes + t.link.stats.errorBytes + 1 + 2 + t.link.buffered := by
  have hrun : (Site.run? ⟨{ link with settings := impatient }, site.cells⟩ busy).map
      (fun r => (r.1, r.2.link.stats)) = some (busyLog, ⟨0, 1, 1, 3, 1⟩) := by decide +kernel
  obtain ⟨⟨log, t⟩, hrun, heq⟩ := Option.map_eq_some_iff.mp hrun
  obtain ⟨rfl, hstats⟩ := Prod.mk.inj heq
  have hconserved := (bytes_conserved new_impatient (Site.Run.of_run? hrun)).1
  exact ⟨t, .of_run? hrun, hstats, hconserved⟩

end Gauge

end DataLink
