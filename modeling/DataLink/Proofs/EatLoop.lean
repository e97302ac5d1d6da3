import DataLink.Link
import DataLink.Proofs.Eating

/-!
# The loop that eats input

The loop is given in closed form. The bites that it takes determine the link, the assignments
and the event that it leaves behind.
-/

namespace DataLink

/-- When the present run of garbage started, after bites that are all taken at one time. -/
def Bite.garbageSince (now : Duration) : Option Duration → List Bite → Option Duration
  | since, [] => since
  | _, .accept _ _ :: rest => garbageSince now none rest
  | since, .drop _ :: rest => garbageSince now (some (since.getD now)) rest

namespace Protocol

/-- Takes bites from the front of an input until more of it is needed, at most so many. -/
def chew : Nat → Protocol → Bytes → Protocol × List Bite
  | 0, p, _ => (p, [])
  | steps + 1, p, input =>
    match p.bite? input with
    | none => (p, [])
    | some b =>
      let (q, bites) := chew steps (p.eat input).1 (input.drop b.length)
      (q, b :: bites)

/-- Where no bite can be taken, none is. -/
theorem chew_of_none {p : Protocol} {input : Bytes} (steps : Nat) (h : p.bite? input = none) :
    p.chew steps input = (p, []) := by
  cases steps with
  | zero => rfl
  | succ steps => simp only [chew, h]

/-- The first bite is taken from the front, and the others are taken from the rest of the input. -/
theorem chew_of_some {p : Protocol} {input : Bytes} {b : Bite} (steps : Nat)
    (h : p.bite? input = some b) :
    p.chew (steps + 1) input =
      (((p.eat input).1.chew steps (input.drop b.length)).1,
        b :: ((p.eat input).1.chew steps (input.drop b.length)).2) := by
  simp only [chew, h]

/-- However many bites are taken, envelopes are read as before. -/
@[simp] theorem readers_chew (p : Protocol) (steps : Nat) (input : Bytes) :
    (p.chew steps input).1.readers = p.readers := by
  induction steps generalizing p input with
  | zero => rfl
  | succ steps ih =>
    cases h : p.bite? input with
    | none => rw [chew_of_none _ h]
    | some b => rw [chew_of_some _ h, ih, readers_eat]

/-- The bites taken are those that the protocol allows on the stream. -/
theorem eats_chew (p : Protocol) (steps : Nat) (input : Bytes) :
    p.Eats input (p.chew steps input).2 (input.drop (Bite.total (p.chew steps input).2)) := by
  induction steps generalizing p input with
  | zero => exact .nothing input
  | succ steps ih =>
    cases h : p.bite? input with
    | none =>
      rw [chew_of_none _ h]
      exact .nothing input
    | some b =>
      rw [chew_of_some _ h]
      apply Eats.bite h
      have hothers := (ih (p.eat input).1 (input.drop b.length)).congr (readers_eat p input)
      rwa [List.drop_drop] at hothers

/-- With a step for every byte, eating stops only for want of input. -/
theorem bite?_chew (p : Protocol) {steps : Nat} {input : Bytes} (h : input.length ≤ steps) :
    p.bite? (input.drop (Bite.total (p.chew steps input).2)) = none := by
  induction steps generalizing p input with
  | zero =>
    have hnil : input = [] := List.length_eq_zero_iff.mp (by omega)
    subst hnil
    exact p.bite?_nil
  | succ steps ih =>
    cases hb : p.bite? input with
    | none =>
      rw [chew_of_none _ hb]
      exact hb
    | some b =>
      have hpos := (bite?_length hb).1
      have hle : (input.drop b.length).length ≤ steps := by
        rw [List.length_drop]
        omega
      have hstop := ih (p.eat input).1 hle
      rw [List.drop_drop] at hstop
      rw [chew_of_some _ hb, Bite.total_cons, ← hstop]
      exact bite?_congr (readers_eat p input).symm _

end Protocol

namespace Link

/-- The bites that the link takes from what it has buffered, and its protocol after them. -/
def chewed (link : Link) : Protocol × List Bite :=
  link.protocol.chew link.input.length link.input

/-- The bites that the link takes from what it has buffered. -/
def bites (link : Link) : List Bite := link.chewed.2

/-- The link after bites that are all taken at one time. -/
def afterBites (link : Link) (now : Duration) (protocol : Protocol) (bites : List Bite) : Link :=
  { link with
    protocol
    input := link.input.drop (Bite.total bites)
    isValid := link.isValid || !(Bite.accepted bites).isEmpty
    stats :=
      { link.stats with
        errorBytes := link.stats.errorBytes + Bite.drops bites
        validBytes := link.stats.validBytes + Bite.acceptedBytes bites
        validEnvelopes := link.stats.validEnvelopes + (Bite.accepted bites).length }
    lastValidAt := if (Bite.accepted bites).isEmpty then link.lastValidAt else some now
    failsafeActive := link.failsafeActive && (Bite.accepted bites).isEmpty
    garbageSince := Bite.garbageSince now link.garbageSince bites }

/-- Whether bites make an invalid link valid. -/
def acquires (link : Link) (bites : List Bite) : Bool :=
  !link.isValid && !(Bite.accepted bites).isEmpty

/-- Without bites the link stays as it is. -/
theorem afterBites_nil (link : Link) (now : Duration) :
    link.afterBites now link.protocol [] = link := by
  simp [afterBites, Bite.drops, Bite.acceptedBytes, Bite.garbageSince]

/-- An accepted envelope can be counted before the bites that follow it. -/
theorem afterBites_accept (link : Link) (now : Duration) (p q : Protocol) (eaten : Eaten)
    (writes : List Assignment) (bites : List Bite) :
    (({ link with protocol := p }).accept now eaten.consumed).afterBites now q bites =
      link.afterBites now q (.accept eaten writes :: bites) := by
  simp [afterBites, accept, Bite.acceptedBytes, Bite.garbageSince, Bite.length, List.drop_drop]
  omega

/-- A dropped byte can be counted before the bites that follow it. -/
theorem afterBites_drop (link : Link) (now : Duration) (p q : Protocol) (fault : WireFault)
    (bites : List Bite) :
    (({ link with protocol := p }).reject now).afterBites now q bites =
      link.afterBites now q (.drop fault :: bites) := by
  simp [afterBites, reject, Bite.acceptedBytes, Bite.garbageSince, Bite.length]
  omega

/-- Where no bite can be taken, the loop is over. -/
theorem eatSteps_of_none {now : Duration} {link : Link} (steps : Nat) (cells : Cells)
    (events : List LinkEvent) (h : link.protocol.bite? link.input = none) :
    eatSteps now steps link cells events = (link, cells, events) := by
  cases steps with
  | zero => rfl
  | succ steps =>
    by_cases hinput : link.input = []
    · simp only [eatSteps, if_pos hinput]
    · simp only [Protocol.bite?, if_neg hinput] at h
      cases hout : (link.protocol.eat link.input).2 with
      | ok eaten => simp [hout] at h
      | error fault =>
        cases fault with
        | insufficient needed available =>
          simp only [eatSteps, if_neg hinput, hout, Protocol.eat_fst_of_insufficient hout]
        | unknownMagic => simp [hout] at h
        | signatureMismatch => simp [hout] at h

/-- Where an envelope can be accepted, the loop accepts it and goes on behind it. -/
theorem eatSteps_of_accept {now : Duration} {link : Link} {eaten : Eaten}
    {writes : List Assignment} (steps : Nat) (cells : Cells) (events : List LinkEvent)
    (h : link.protocol.bite? link.input = some (.accept eaten writes)) :
    eatSteps now (steps + 1) link cells events =
      eatSteps now steps
        (({ link with protocol := (link.protocol.eat link.input).1 }).accept now eaten.consumed)
        (cells.replay writes) (if link.isValid then events else events ++ [.acquired]) := by
  obtain ⟨hinput, hout, rfl⟩ := Protocol.bite?_eq_accept_iff.mp h
  simp only [eatSteps, if_neg hinput, hout, Protocol.deliver_eq_replay]

/-- Where a byte can be dropped, the loop drops it and goes on behind it. -/
theorem eatSteps_of_drop {now : Duration} {link : Link} {fault : WireFault} (steps : Nat)
    (cells : Cells) (events : List LinkEvent)
    (h : link.protocol.bite? link.input = some (.drop fault)) :
    eatSteps now (steps + 1) link cells events =
      eatSteps now steps
        (({ link with protocol := (link.protocol.eat link.input).1 }).reject now) cells events := by
  obtain ⟨hinput, hout, hfault⟩ := Protocol.bite?_eq_drop_iff.mp h
  cases fault with
  | insufficient needed available => exact absurd rfl (hfault needed available)
  | unknownMagic => simp only [eatSteps, if_neg hinput, hout]
  | signatureMismatch => simp only [eatSteps, if_neg hinput, hout]

/-- The loop that eats input, in closed form. -/
theorem eatSteps_eq (now : Duration) (steps : Nat) (link : Link) (cells : Cells)
    (events : List LinkEvent) :
    eatSteps now steps link cells events =
      (link.afterBites now (link.protocol.chew steps link.input).1
          (link.protocol.chew steps link.input).2,
        cells.replay ((link.protocol.chew steps link.input).2.flatMap Bite.writes),
        events ++ if link.acquires (link.protocol.chew steps link.input).2 then [.acquired]
          else []) := by
  induction steps generalizing link cells events with
  | zero => simp [eatSteps, Protocol.chew, afterBites_nil, acquires]
  | succ steps ih =>
    cases h : link.protocol.bite? link.input with
    | none =>
      rw [eatSteps_of_none _ _ _ h, Protocol.chew_of_none _ h]
      simp [afterBites_nil, acquires]
    | some b =>
      rw [Protocol.chew_of_some _ h]
      cases b with
      | accept eaten writes =>
        rw [eatSteps_of_accept _ _ _ h, ih]
        refine Prod.ext (link.afterBites_accept now _ _ eaten writes _) (Prod.ext ?_ ?_)
        · exact (cells.replay_append _ _).symm
        · cases hvalid : link.isValid <;> simp [acquires, accept, hvalid]
      | drop fault =>
        rw [eatSteps_of_drop _ _ _ h, ih]
        exact Prod.ext (link.afterBites_drop now _ _ fault _) rfl

end Link

end DataLink
