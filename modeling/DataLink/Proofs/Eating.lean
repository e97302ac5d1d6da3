import DataLink.Proofs.Readers
import Mathlib.Algebra.Order.Ring.Int

/-!
# Eating a stream

A link eats its input in bites: an accepted envelope or a dropped byte. A bite once possible
stays the same when more bytes arrive, so the bites of a stream do not depend on how it is cut.
-/

namespace DataLink

/-- A step of eating at the front of the input. -/
inductive Bite where
  /-- An envelope is accepted, and its values are assigned. -/
  | accept (eaten : Eaten) (writes : List Assignment)
  /-- A byte that starts no envelope is dropped. -/
  | drop (fault : WireFault)
  deriving DecidableEq, Repr

namespace Bite

/-- The bytes that a bite takes from the input. -/
def length : Bite → Nat
  | .accept eaten _ => eaten.consumed
  | .drop _ => 1

/-- The accepted envelope, if there is one. -/
def eaten? : Bite → Option Eaten
  | .accept eaten _ => some eaten
  | .drop _ => none

/-- What a bite assigns to cells. -/
def writes : Bite → List Assignment
  | .accept _ writes => writes
  | .drop _ => []

/-- The bytes that bites take together. -/
def total (bites : List Bite) : Nat := (bites.map length).sum

/-- No bites take no bytes. -/
@[simp] theorem total_nil : total [] = 0 := rfl

/-- The bytes of a first bite are added to those of the others. -/
@[simp] theorem total_cons (b : Bite) (bites : List Bite) :
    total (b :: bites) = b.length + total bites := by
  simp only [total, List.map_cons, List.sum_cons]

/-- The envelopes that bites accept, in order. -/
def accepted (bites : List Bite) : List Eaten := bites.filterMap eaten?

/-- The bytes that bites drop. -/
def drops (bites : List Bite) : Nat := bites.countP fun b => b.eaten?.isNone

/-- The bytes of the envelopes that bites accept. -/
def acceptedBytes (bites : List Bite) : Nat := ((accepted bites).map Eaten.consumed).sum

/-- Without bites nothing is accepted. -/
@[simp] theorem accepted_nil : accepted [] = [] := rfl

/-- An accepted envelope comes before those that are accepted later. -/
@[simp] theorem accepted_accept (eaten : Eaten) (writes : List Assignment) (bites : List Bite) :
    accepted (.accept eaten writes :: bites) = eaten :: accepted bites := rfl

/-- A dropped byte is no accepted envelope. -/
@[simp] theorem accepted_drop (fault : WireFault) (bites : List Bite) :
    accepted (.drop fault :: bites) = accepted bites := rfl

/-- What is accepted in two stretches is accepted in one after the other. -/
@[simp] theorem accepted_append (first second : List Bite) :
    accepted (first ++ second) = accepted first ++ accepted second := List.filterMap_append

/-- Without bites nothing is dropped. -/
@[simp] theorem drops_nil : drops [] = 0 := rfl

/-- An accepted envelope drops no byte. -/
@[simp] theorem drops_accept (eaten : Eaten) (writes : List Assignment) (bites : List Bite) :
    drops (.accept eaten writes :: bites) = drops bites := rfl

/-- A dropped byte is counted once. -/
@[simp] theorem drops_drop (fault : WireFault) (bites : List Bite) :
    drops (.drop fault :: bites) = drops bites + 1 := by simp [drops, eaten?]

/-- The bytes that are dropped in two stretches add up. -/
@[simp] theorem drops_append (first second : List Bite) :
    drops (first ++ second) = drops first + drops second := List.countP_append

/-- The bytes that are accepted in two stretches add up. -/
@[simp] theorem acceptedBytes_append (first second : List Bite) :
    acceptedBytes (first ++ second) = acceptedBytes first + acceptedBytes second := by
  simp only [acceptedBytes, accepted_append, List.map_append, List.sum_append]

end Bite

namespace Protocol

/-- The bite that the front of the input allows, none if more input is needed. -/
def bite? (p : Protocol) (input : Bytes) : Option Bite :=
  if input = [] then none
  else
    match (p.eat input).2 with
    | .ok eaten => some (.accept eaten ((p.eat input).1.writes eaten.envelope))
    | .error (.insufficient _ _) => none
    | .error fault => some (.drop fault)

/-- There is nothing to bite from an empty input. -/
theorem bite?_nil (p : Protocol) : p.bite? [] = none := rfl

/-- An envelope is accepted exactly if eating it succeeds, with the assignments that its values
make. -/
theorem bite?_eq_accept_iff {p : Protocol} {input : Bytes} {eaten : Eaten}
    {writes : List Assignment} :
    p.bite? input = some (.accept eaten writes) ↔
      input ≠ [] ∧ (p.eat input).2 = .ok eaten ∧ (p.eat input).1.writes eaten.envelope = writes := by
  unfold bite?
  by_cases hinput : input = []
  · simp [hinput]
  · rw [if_neg hinput]
    cases hout : (p.eat input).2 with
    | error fault => cases fault <;> simp
    | ok found =>
      simp only [Option.some.injEq, Bite.accept.injEq, Except.ok.injEq]
      constructor
      · rintro ⟨rfl, hwrites⟩
        exact ⟨hinput, rfl, hwrites⟩
      · rintro ⟨-, rfl, hwrites⟩
        exact ⟨rfl, hwrites⟩

/-- A byte is dropped exactly if eating fails for another reason than a lack of input. -/
theorem bite?_eq_drop_iff {p : Protocol} {input : Bytes} {fault : WireFault} :
    p.bite? input = some (.drop fault) ↔
      input ≠ [] ∧ (p.eat input).2 = .error fault ∧
        ∀ needed available, fault ≠ .insufficient needed available := by
  unfold bite?
  by_cases hinput : input = []
  · simp [hinput]
  · rw [if_neg hinput]
    cases hout : (p.eat input).2 with
    | ok found => simp
    | error found => cases found <;> cases fault <;> simp [hinput]

/-- The next bite depends only on how envelopes are read. -/
theorem bite?_congr {p q : Protocol} (h : p.readers = q.readers) (input : Bytes) :
    p.bite? input = q.bite? input := by
  unfold bite?
  rw [← eat_outcome_congr h input]
  cases hok : (p.eat input).2 with
  | error fault => cases fault <;> rfl
  | ok eaten => simp only [writes_eat_congr h hok]

/-- A bite once possible stays the same when more bytes arrive. -/
theorem bite?_append {p : Protocol} {input : Bytes} {b : Bite} (h : p.bite? input = some b)
    (more : Bytes) : p.bite? (input ++ more) = some b := by
  cases b with
  | accept eaten writes =>
    obtain ⟨hne, hok, rfl⟩ := bite?_eq_accept_iff.mp h
    have hout : (p.eat (input ++ more)).2 = .ok eaten := by
      rw [eat_outcome_append more (by simp [hok]), hok]
    refine bite?_eq_accept_iff.mpr ⟨by simp [hne], hout, ?_⟩
    obtain ⟨e, he, -, -, hdecode, hwrites⟩ := eat_ok hok
    obtain ⟨e', he', -, -, -, hwrites'⟩ := eat_ok hout
    obtain rfl : e' = e := Option.some.inj (he'.symm.trans he)
    rw [hwrites', hwrites, Packet.decode_append more (Packet.decode_ok hdecode).2.1]
  | drop fault =>
    obtain ⟨hne, herror, hfault⟩ := bite?_eq_drop_iff.mp h
    have hstay : ∀ needed available,
        (p.eat input).2 ≠ .error (.insufficient needed available) := by
      intro needed available heq
      rw [herror] at heq
      exact hfault needed available (Except.error.inj heq)
    exact bite?_eq_drop_iff.mpr ⟨by simp [hne], by rw [eat_outcome_append more hstay, herror], hfault⟩

/-- A bite takes at least one byte and no more than there are. -/
theorem bite?_length {p : Protocol} {input : Bytes} {b : Bite} (h : p.bite? input = some b) :
    0 < b.length ∧ b.length ≤ input.length := by
  cases b with
  | accept eaten writes =>
    obtain ⟨-, hok, -⟩ := bite?_eq_accept_iff.mp h
    obtain ⟨e, -, -, -, hdecode, -⟩ := eat_ok hok
    obtain ⟨hn, hle, -⟩ := Packet.decode_ok hdecode
    have hpos := e.size_pos
    rw [Envelope.size, ← hn] at hpos
    rw [← hn] at hle
    exact ⟨hpos, hle⟩
  | drop fault =>
    obtain ⟨hne, -, -⟩ := bite?_eq_drop_iff.mp h
    exact ⟨Nat.one_pos, List.length_pos_iff.mpr hne⟩

/-- Taking bites in order from the front of an input leaves the rest of it. -/
inductive Eats (p : Protocol) : Bytes → List Bite → Bytes → Prop where
  | nothing (input : Bytes) : p.Eats input [] input
  | bite {input rest : Bytes} {b : Bite} {bites : List Bite} (first : p.bite? input = some b)
      (others : p.Eats (input.drop b.length) bites rest) : p.Eats input (b :: bites) rest

namespace Eats

variable {p q : Protocol} {input middle rest : Bytes} {bites others : List Bite}

/-- Eating can be continued where it paused. -/
theorem trans (h : p.Eats input bites middle) (h' : p.Eats middle others rest) :
    p.Eats input (bites ++ others) rest := by
  induction h with
  | nothing => exact h'
  | bite first _ ih => exact .bite first (ih h')

/-- Bytes that arrive later do not change what was eaten. -/
theorem append (h : p.Eats input bites rest) (more : Bytes) :
    p.Eats (input ++ more) bites (rest ++ more) := by
  induction h with
  | nothing input => exact .nothing (input ++ more)
  | bite first _ ih =>
    apply Eats.bite (bite?_append first more)
    rwa [List.drop_append_of_le_length (bite?_length first).2]

/-- What is eaten depends only on how envelopes are read. -/
theorem congr (h : p.Eats input bites rest) (hpq : p.readers = q.readers) :
    q.Eats input bites rest := by
  induction h with
  | nothing input => exact .nothing input
  | bite first _ ih => exact .bite (bite?_congr hpq _ ▸ first) ih

/-- The rest is what the bites did not take. -/
theorem rest_eq (h : p.Eats input bites rest) :
    rest = input.drop (Bite.total bites) ∧ Bite.total bites ≤ input.length := by
  induction h with
  | nothing input => simp
  | bite first _ ih =>
    obtain ⟨-, hle⟩ := bite?_length first
    obtain ⟨hrest, hall⟩ := ih
    rw [List.length_drop] at hall
    refine ⟨by rw [hrest, List.drop_drop, Bite.total_cons], ?_⟩
    rw [Bite.total_cons]
    omega

/-- Eating until more input is needed has one result. -/
theorem unique {rest' : Bytes} (h : p.Eats input bites rest) (hstop : p.bite? rest = none)
    (h' : p.Eats input others rest') (hstop' : p.bite? rest' = none) :
    bites = others ∧ rest = rest' := by
  induction h generalizing others with
  | nothing input =>
    cases h' with
    | nothing => exact ⟨rfl, rfl⟩
    | bite first _ => simp [first] at hstop
  | bite first _ ih =>
    cases h' with
    | nothing => simp [first] at hstop'
    | bite first' more =>
      obtain rfl := Option.some.inj (first.symm.trans first')
      obtain ⟨rfl, rfl⟩ := ih hstop more
      exact ⟨rfl, rfl⟩

end Eats

end Protocol

end DataLink
