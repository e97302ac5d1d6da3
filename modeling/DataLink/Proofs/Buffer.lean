import DataLink.Proofs.Reacquisition
import Mathlib.Data.List.MinMax

/-!
# The input buffer

However much a link is fed, a cycle leaves little in the buffer. The loop that eats input is
written down here without any bound on its turns. It ends, because a turn that is not its last
takes at least one byte, and it ends only where the front of the input is an envelope that is not
complete.
-/

namespace DataLink

namespace Link

/-- The loop that eats input, as so many turns that lead to a result. A turn begins if there is
input, and the loop is left if nothing is there or if the protocol asks for more. -/
inductive Loop (now : Duration) : Nat → Link → Cells → List LinkEvent →
    Link × Cells × List LinkEvent → Prop where
  | empty {link : Link} {cells : Cells} {events : List LinkEvent} (hinput : link.input = []) :
    Loop now 0 link cells events (link, cells, events)
  | waits {link : Link} {cells : Cells} {events : List LinkEvent} {protocol : Protocol}
      {needed available : Nat} (hinput : link.input ≠ [])
      (heat : link.protocol.eat link.input = (protocol, .error (.insufficient needed available))) :
    Loop now 1 link cells events ({ link with protocol }, cells, events)
  | accepts {turns : Nat} {link : Link} {cells : Cells} {events : List LinkEvent}
      {protocol : Protocol} {eaten : Eaten} {result : Link × Cells × List LinkEvent}
      (hinput : link.input ≠ []) (heat : link.protocol.eat link.input = (protocol, .ok eaten))
      (others : Loop now turns (({ link with protocol }).accept now eaten.consumed)
        (protocol.deliver eaten.envelope cells)
        (if link.isValid then events else events ++ [.acquired]) result) :
    Loop now (turns + 1) link cells events result
  | rejects {turns : Nat} {link : Link} {cells : Cells} {events : List LinkEvent}
      {protocol : Protocol} {fault : WireFault} {result : Link × Cells × List LinkEvent}
      (hinput : link.input ≠ []) (heat : link.protocol.eat link.input = (protocol, .error fault))
      (hfault : ∀ needed available, fault ≠ .insufficient needed available)
      (others : Loop now turns (({ link with protocol }).reject now) cells events result) :
    Loop now (turns + 1) link cells events result

namespace Loop

variable {now : Duration} {turns turns' : Nat} {link : Link} {cells : Cells}
  {events : List LinkEvent} {result result' : Link × Cells × List LinkEvent}

/-- The loop has one course. -/
theorem unique (h : Loop now turns link cells events result)
    (h' : Loop now turns' link cells events result') : turns = turns' ∧ result = result' := by
  induction h generalizing turns' with
  | empty hinput =>
    cases h' with
    | empty => exact ⟨rfl, rfl⟩
    | waits hne => exact absurd hinput hne
    | accepts hne => exact absurd hinput hne
    | rejects hne => exact absurd hinput hne
  | waits hne heat =>
    cases h' with
    | empty hinput => exact absurd hinput hne
    | waits _ heat' =>
      obtain ⟨rfl, -⟩ := Prod.mk.inj (heat.symm.trans heat')
      exact ⟨rfl, rfl⟩
    | accepts _ heat' =>
      obtain ⟨-, hout⟩ := Prod.mk.inj (heat.symm.trans heat')
      cases hout
    | rejects _ heat' hfault =>
      obtain ⟨-, hout⟩ := Prod.mk.inj (heat.symm.trans heat')
      exact absurd (Except.error.inj hout).symm (hfault _ _)
  | accepts hne heat _ ih =>
    cases h' with
    | empty hinput => exact absurd hinput hne
    | waits _ heat' =>
      obtain ⟨-, hout⟩ := Prod.mk.inj (heat.symm.trans heat')
      cases hout
    | accepts _ heat' others' =>
      obtain ⟨rfl, hout⟩ := Prod.mk.inj (heat.symm.trans heat')
      obtain rfl := Except.ok.inj hout
      obtain ⟨rfl, rfl⟩ := ih others'
      exact ⟨rfl, rfl⟩
    | rejects _ heat' =>
      obtain ⟨-, hout⟩ := Prod.mk.inj (heat.symm.trans heat')
      cases hout
  | rejects hne heat hfault _ ih =>
    cases h' with
    | empty hinput => exact absurd hinput hne
    | waits _ heat' =>
      obtain ⟨-, hout⟩ := Prod.mk.inj (heat.symm.trans heat')
      exact absurd (Except.error.inj hout) (hfault _ _)
    | accepts _ heat' =>
      obtain ⟨-, hout⟩ := Prod.mk.inj (heat.symm.trans heat')
      cases hout
    | rejects _ heat' _ others' =>
      obtain ⟨rfl, -⟩ := Prod.mk.inj (heat.symm.trans heat')
      obtain ⟨rfl, rfl⟩ := ih others'
      exact ⟨rfl, rfl⟩

end Loop

/-- With a step for every byte, the bounded form of the loop runs its course. -/
theorem loop_eatSteps (now : Duration) {steps : Nat} (link : Link) (cells : Cells)
    (events : List LinkEvent) (h : link.input.length ≤ steps) :
    ∃ turns ≤ link.input.length,
      Loop now turns link cells events (eatSteps now steps link cells events) := by
  induction steps generalizing link cells events with
  | zero =>
    have hinput : link.input = [] := List.length_eq_zero_iff.mp (by omega)
    exact ⟨0, Nat.zero_le _, .empty hinput⟩
  | succ steps ih =>
    by_cases hinput : link.input = []
    · rw [eatSteps, if_pos hinput]
      exact ⟨0, Nat.zero_le _, .empty hinput⟩
    have hpos : 0 < link.input.length := List.length_pos_iff.mpr hinput
    cases heat : link.protocol.eat link.input with
    | mk protocol outcome =>
      rw [eatSteps, if_neg hinput, heat]
      cases outcome with
      | ok eaten =>
        -- An accepted envelope is not empty, so fewer bytes are left for the other turns.
        have hbite : link.protocol.bite? link.input =
            some (.accept eaten (protocol.writes eaten.envelope)) :=
          Protocol.bite?_eq_accept_iff.mpr ⟨hinput, by rw [heat], by rw [heat]⟩
        have htaken : 0 < eaten.consumed := (Protocol.bite?_length hbite).1
        have hleft : (({ link with protocol }).accept now eaten.consumed).input.length =
            link.input.length - eaten.consumed := List.length_drop
        obtain ⟨turns, hturns, others⟩ :=
          ih (({ link with protocol }).accept now eaten.consumed)
            (protocol.deliver eaten.envelope cells)
            (if link.isValid then events else events ++ [.acquired]) (by omega)
        exact ⟨turns + 1, by omega, .accepts hinput heat others⟩
      | error fault =>
        have hleft : (({ link with protocol }).reject now).input.length =
            link.input.length - 1 := List.length_drop
        obtain ⟨turns, hturns, others⟩ :=
          ih (({ link with protocol }).reject now) cells events (by omega)
        cases fault with
        | insufficient needed available => exact ⟨1, hpos, .waits hinput heat⟩
        | unknownMagic =>
          exact ⟨turns + 1, by omega, .rejects hinput heat (by simp) others⟩
        | signatureMismatch =>
          exact ⟨turns + 1, by omega, .rejects hinput heat (by simp) others⟩

/-- Starting the timers leaves the buffer alone. -/
theorem buffered_of_start? {link started : Link} {now startedAt : Duration}
    (h : link.start? now = some (started, startedAt)) : started.buffered = link.buffered := by
  obtain ⟨-, rfl, -⟩ := start?_eq_some h
  rfl

end Link

namespace Protocol

variable {p : Protocol} {input : Bytes}

/-- What may be left in a buffer that was eaten from. -/
inductive Awaits (p : Protocol) (input : Bytes) : Prop where
  | nothing (hinput : input = [])
  | magic (hshort : input.length < p.magicSize)
  /-- The start of an envelope that is not complete. -/
  | rest (e : Envelope) (hmem : e ∈ p.envelopes) (hmagic : e.header.magic <+: input)
      (hshort : input.length < e.size)

/-- An envelope is looked up by its own magic. -/
theorem magic_of_find? {magic : Bytes} {i : Nat} {e : Envelope} (hfind : p.find? magic = some i)
    (he : p.envelopes[i]? = some e) : e.header.magic = magic := by
  obtain ⟨hi, hmagic, -⟩ := List.findIdx?_eq_some_iff_getElem.mp hfind
  obtain ⟨-, rfl⟩ := List.getElem?_eq_some_iff.mp he
  exact of_decide_eq_true hmagic

/-- Where no bite is possible, the front of the input is an envelope that is not complete. -/
theorem awaits_of_bite?_none (h : p.bite? input = none) : p.Awaits input := by
  rcases insufficient_of_bite?_none h with hinput | ⟨needed, available, hout⟩
  · exact .nothing hinput
  · rcases p.eat_cases input with ⟨hshort, -⟩ | ⟨-, -, heat⟩ | ⟨i, e, -, hfind, he, heat⟩
    · exact .magic hshort
    · rw [heat] at hout
      cases hout
    · have hdecode : (e.packet.decode input).outcome = .error (.insufficient needed available) := by
        rw [heat] at hout
        exact Packet.map_error_iff.mp hout
      have hmagic : e.header.magic <+: input := by
        rw [magic_of_find? hfind he]
        exact List.take_prefix _ _
      exact .rest e (List.mem_of_getElem? he) hmagic (Packet.decode_insufficient_iff.mp hdecode).1

/-- The size of the largest envelope. -/
def largestSize (p : Protocol) : Nat := (p.envelopes.map Envelope.size).foldr max 0

/-- No envelope is larger than the largest one. -/
theorem size_le_largestSize {e : Envelope} (h : e ∈ p.envelopes) : e.size ≤ p.largestSize :=
  List.le_max_of_le' 0 (List.mem_map_of_mem h) (Nat.le_refl _)

end Protocol

/-- No further bite is possible after a cycle, also if it dropped what it could not eat. -/
theorem Site.Cycles.bite?_input {s t : Site} {c : CycleLog} (h : s.Cycles c t) :
    s.link.protocol.bite? t.link.input = none := by
  rw [h.input_eq]
  by_cases hdrop : s.link.reacquires c.now = true
  · rw [if_pos hdrop]
    exact s.link.protocol.bite?_nil
  · rw [if_neg hdrop]
    exact h.eats.2

/-- Whatever a link was fed, a cycle leaves its loop after at most as many turns as there are
bytes in the buffer. What is then left in the buffer is at most the start of one envelope, and so
it is less than the largest envelope. -/
theorem buffer_bounded {protocol : Protocol} {settings : Settings} {entropy : Entropy} {link : Link}
    {cells : Cells} {actions : List Action} {log : Log} {s : Site}
    (hnew : Link.new protocol settings entropy = .ok link)
    (h : Site.Run ⟨link, cells⟩ actions log s) (now : Duration) :
    (∀ started startedAt, s.link.start? now = some (started, startedAt) →
      (∃ turns ≤ s.link.buffered,
        Link.Loop now turns started s.cells [] (started.eatInput s.cells now)) ∧
      ∀ turns result, Link.Loop now turns started s.cells [] result →
        turns ≤ s.link.buffered ∧ result = started.eatInput s.cells now) ∧
    ∀ c t, s.step? (.cycle now) = some (.cycled c, t) →
      protocol.Awaits t.link.input ∧ t.link.buffered < protocol.largestSize := by
  constructor
  · intro started startedAt hstart
    obtain ⟨turns, hturns, hloop⟩ := Link.loop_eatSteps now started s.cells [] (Nat.le_refl _)
    rw [← Link.buffered, Link.buffered_of_start? hstart] at hturns
    refine ⟨⟨turns, hturns, hloop⟩, ?_⟩
    intro turns' result hother
    obtain ⟨rfl, rfl⟩ := hloop.unique hother
    exact ⟨hturns, rfl⟩
  · intro c t hcycle
    have hreaders : s.link.protocol.readers = protocol.readers :=
      (Link.Fresh.of_new hnew).protocol ▸ h.readers
    cases Site.Step.of_step? hcycle with
    | cycle _ _ hc =>
      have hstop : protocol.bite? t.link.input = none := by
        rw [← Protocol.bite?_congr hreaders]
        exact hc.bite?_input
      obtain ⟨e, hmem, hshort⟩ :=
        Protocol.shorter_of_bite?_none hstop (Link.envelopes_of_new hnew)
      exact ⟨Protocol.awaits_of_bite?_none hstop,
        Nat.lt_of_lt_of_le hshort (Protocol.size_le_largestSize hmem)⟩

namespace Gauge

/-- Garbage, an envelope, and the start of another. -/
def crowd : Bytes := 7 :: frame ++ [0xAB, 2]

/-- Garbage, an envelope and the start of another one are buffered. The loop ends after at most six
turns, and the two bytes of the start wait for the rest. -/
theorem buffer_bounded_gauge :
    ∃ s started c t, Site.Run site [.feed crowd] [.arrived crowd] s ∧ s.link.buffered = 6 ∧
      s.link.start? .zero = some (started, .zero) ∧
      (∃ turns ≤ 6, Link.Loop .zero turns started s.cells [] (started.eatInput s.cells .zero)) ∧
      s.step? (.cycle .zero) = some (.cycled c, t) ∧ t.link.input = [0xAB, 2] ∧
      protocol.Awaits [0xAB, 2] ∧ t.link.buffered < protocol.largestSize := by
  let s : Site := { site with link := link.feed crowd }
  have hrun : Site.Run site [.feed crowd] [.arrived crowd] s := .of_run? rfl
  have hstart : s.link.start? .zero = some ({ s.link with startedAt := some .zero }, .zero) := rfl
  have hstep : ((s.step? (.cycle .zero)).map fun r => (r.1, r.2.link.input)) =
      some (.cycled ⟨.zero, [.drop .unknownMagic, .accept ⟨0, 3⟩ [⟨"level", some (.unsigned 258)⟩]],
        [⟨"level", some (.unsigned 258)⟩], [.acquired], none⟩, [0xAB, 2]) := by
    decide +kernel
  obtain ⟨⟨e, t⟩, hcycle, heq⟩ := Option.map_eq_some_iff.mp hstep
  obtain ⟨rfl, hinput⟩ := Prod.mk.inj heq
  obtain ⟨hloop, hleft⟩ := buffer_bounded new_eq hrun .zero
  obtain ⟨hawaits, hshort⟩ := hleft _ t hcycle
  rw [hinput] at hawaits
  exact ⟨s, _, _, t, hrun, rfl, hstart, (hloop _ _ hstart).1, hcycle, hinput, hawaits, hshort⟩

end Gauge

end DataLink
