import Mathlib.Data.List.Forall2

/-!
# Results that agree

Two computations agree if both succeed, with related results, or both fail with one fault. This
is kept by sequencing, so two computations of one shape are compared step by step. In the same way
a computation is followed step by step to find under which condition it succeeds.
-/

namespace DataLink

/-- If a sequence of computations succeeds, each of them does. -/
theorem of_bind_ok {ε α β : Type} {x : Except ε α} {f : α → Except ε β} {b : β}
    (h : x >>= f = .ok b) : ∃ a, x = .ok a ∧ f a = .ok b := by
  cases x with
  | ok a => exact ⟨a, rfl, h⟩
  | error fault => cases h

/-- What succeeds after its fault was renamed has succeeded before. -/
theorem of_mapError_ok {ε ζ α : Type} {x : Except ε α} {f : ε → ζ} {a : α}
    (h : x.mapError f = .ok a) : x = .ok a := by
  cases x with
  | ok b => rw [Except.ok.inj h]
  | error fault => cases h

/-- What is left when the fault is forgotten was a success. -/
theorem of_toOption_some {ε α : Type} {x : Except ε α} {a : α} (h : x.toOption = some a) :
    x = .ok a := by
  cases x with
  | ok b => rw [Option.some.inj h]
  | error fault => cases h

/-- Both succeed, with related results, or both fail, with the same fault. -/
def Agree {ε α β : Type} (R : α → β → Prop) : Except ε α → Except ε β → Prop
  | .ok a, .ok b => R a b
  | .error fault, .error fault' => fault = fault'
  | _, _ => False

namespace Agree

variable {ε α β γ δ : Type} {R : α → β → Prop} {S : γ → δ → Prop}

/-- Computations that agree go on to agree if what follows them does. -/
theorem bind {x : Except ε α} {y : Except ε β} {f : α → Except ε γ} {g : β → Except ε δ}
    (h : Agree R x y) (hf : ∀ a b, R a b → Agree S (f a) (g b)) :
    Agree S (x >>= f) (y >>= g) := by
  cases x with
  | ok a =>
    cases y with
    | ok b => exact hf a b h
    | error fault => cases h
  | error fault =>
    cases y with
    | ok b => cases h
    | error fault' => exact h

/-- What both ends compute alike may be passed over. -/
theorem bind_same (x : Except ε α) {f : α → Except ε γ} {g : α → Except ε δ}
    (h : ∀ a, x = .ok a → Agree S (f a) (g a)) : Agree S (x >>= f) (x >>= g) := by
  cases x with
  | ok a => exact h a rfl
  | error fault => rfl

/-- Agreement is kept if both results are changed in the same way. -/
theorem map {x : Except ε α} {y : Except ε β} {f : α → γ} {g : β → δ} (h : Agree R x y)
    (hf : ∀ a b, R a b → S (f a) (g b)) : Agree S (x.map f) (y.map g) := by
  cases x with
  | ok a =>
    cases y with
    | ok b => exact hf a b h
    | error fault => cases h
  | error fault =>
    cases y with
    | ok b => cases h
    | error fault' => exact h

/-- Agreement in one relation is agreement in a weaker one. -/
theorem imp {x : Except ε α} {y : Except ε β} {R' : α → β → Prop} (h : Agree R x y)
    (hR : ∀ a b, R a b → R' a b) : Agree R' x y := by
  cases x with
  | ok a =>
    cases y with
    | ok b => exact hR a b h
    | error fault => cases h
  | error fault =>
    cases y with
    | ok b => cases h
    | error fault' => exact h

/-- Agreement does not depend on how faults are named. -/
theorem mapError {ζ : Type} {x : Except ε α} {y : Except ε β} (f : ε → ζ) (h : Agree R x y) :
    Agree R (x.mapError f) (y.mapError f) := by
  cases x with
  | ok a =>
    cases y with
    | ok b => exact h
    | error fault => cases h
  | error fault =>
    cases y with
    | ok b => cases h
    | error fault' => exact congrArg f h

/-- Computations that agree one by one agree in sequence. -/
theorem mapM {f : γ → Except ε α} {g : γ → Except ε β} (h : ∀ c, Agree R (f c) (g c))
    (cs : List γ) : Agree (List.Forall₂ R) (cs.mapM f) (cs.mapM g) := by
  induction cs with
  | nil => exact .nil
  | cons c rest ih =>
    rw [List.mapM_cons, List.mapM_cons]
    exact (h c).bind fun a b hab => ih.bind fun as bs hall => .cons hab hall

/-- Results that are related may also be told where they come from. -/
theorem with_eq {x : Except ε α} {y : Except ε β} (h : Agree R x y) :
    Agree (fun a b => R a b ∧ y = .ok b) x y := by
  cases x with
  | ok a =>
    cases y with
    | ok b => exact ⟨h, rfl⟩
    | error fault => cases h
  | error fault =>
    cases y with
    | ok b => cases h
    | error fault' => exact h

/-- What agrees with a success is a success. -/
theorem of_left {x : Except ε α} {y : Except ε β} (h : Agree R x y) {a : α} (hx : x = .ok a) :
    ∃ b, y = .ok b ∧ R a b := by
  subst hx
  cases y with
  | ok b => exact ⟨b, rfl, h⟩
  | error fault => cases h

/-- If the second computation succeeds, the first one does as well. -/
theorem of_right {x : Except ε α} {y : Except ε β} (h : Agree R x y) {b : β} (hy : y = .ok b) :
    ∃ a, x = .ok a ∧ R a b := by
  subst hy
  cases x with
  | ok a => exact ⟨a, rfl, h⟩
  | error fault => cases h

end Agree

/-- A computation succeeds exactly under a condition, and its result then has a property. -/
structure SucceedsIff {ε α : Type} (condition : Prop) (P : α → Prop) (x : Except ε α) : Prop where
  iff : (∃ a, x = .ok a) ↔ condition
  result : ∀ a, x = .ok a → P a

namespace SucceedsIff

variable {ε α β γ : Type} {C D : Prop} {P : α → Prop} {Q : β → Prop} {x : Except ε α}

/-- A result with the property is a success under no condition. -/
theorem ok {a : α} (h : P a) : SucceedsIff True P (.ok a : Except ε α) := by
  refine ⟨iff_true_intro ⟨a, rfl⟩, ?_⟩
  intro b hb
  rwa [← Except.ok.inj hb]

/-- A fault is no success under any condition. -/
theorem error (fault : ε) : SucceedsIff False P (.error fault : Except ε α) := by
  constructor
  · simp
  · intro a ha
    cases ha

/-- The condition for success may be put in other words. -/
theorem congr (h : SucceedsIff C P x) (hcondition : C ↔ D) : SucceedsIff D P x :=
  ⟨h.iff.trans hcondition, h.result⟩

/-- What cannot succeed does so under any condition that cannot be met. -/
theorem of_not (h : SucceedsIff C P x) (hC : ¬ C) (hD : ¬ D) : SucceedsIff D P x :=
  h.congr (iff_of_false hC hD)

/-- What never succeeds does so under every condition that does not hold. -/
theorem of_never (h : ∀ a, x ≠ .ok a) (hC : ¬ C) : SucceedsIff C P x :=
  ⟨iff_of_false (fun ⟨a, ha⟩ => h a ha) hC, fun a ha => absurd ha (h a)⟩

/-- A check that must be passed comes before the rest. -/
theorem guard [Decidable C] {make : C → Except ε α} {fault : ε}
    (h : ∀ hC, SucceedsIff D P (make hC)) :
    SucceedsIff (C ∧ D) P (if hC : C then make hC else .error fault) := by
  split
  · next hC => exact (h hC).congr (and_iff_right hC).symm
  · next hC => exact (error fault).congr (iff_of_false id fun hboth => hC hboth.1)

/-- The property of what succeeds may be weakened. -/
theorem imp {P' : α → Prop} (h : SucceedsIff C P x) (hP : ∀ a, P a → P' a) :
    SucceedsIff C P' x := ⟨h.iff, fun a ha => hP a (h.result a ha)⟩

/-- A sequence succeeds under the conditions of both parts. The second part's condition may depend
only on what is known of the first one's result. -/
theorem bind {f : α → Except ε β} (h : SucceedsIff C P x)
    (hf : ∀ a, P a → SucceedsIff D Q (f a)) : SucceedsIff (C ∧ D) Q (x >>= f) := by
  cases x with
  | ok a =>
    have hrest := hf a (h.result a rfl)
    have hC : C := h.iff.mp ⟨a, rfl⟩
    exact hrest.congr (and_iff_right hC).symm
  | error fault =>
    have hC : ¬ C := fun hC => nomatch h.iff.mpr hC
    exact (error fault).congr (iff_of_false id fun hboth => hC hboth.1)

/-- Changing the result keeps the condition for success. -/
theorem map {f : α → β} (h : SucceedsIff C P x) (hf : ∀ a, P a → Q (f a)) :
    SucceedsIff C Q (x.map f) := by
  cases x with
  | ok a => exact (ok (hf a (h.result a rfl))).congr (iff_of_true trivial (h.iff.mp ⟨a, rfl⟩))
  | error fault => exact (error fault).congr (iff_of_false id fun hC => nomatch h.iff.mpr hC)

/-- Naming the fault differently keeps the condition for success. -/
theorem mapError {ζ : Type} (f : ε → ζ) (h : SucceedsIff C P x) :
    SucceedsIff C P (x.mapError f) := by
  cases x with
  | ok a => exact (ok (h.result a rfl)).congr (iff_of_true trivial (h.iff.mp ⟨a, rfl⟩))
  | error fault => exact (error _).congr (iff_of_false id fun hC => nomatch h.iff.mpr hC)

/-- A sequence succeeds exactly if each of its computations does. -/
theorem mapM {C : γ → Prop} {R : γ → α → Prop} {f : γ → Except ε α}
    (h : ∀ c, SucceedsIff (C c) (R c) (f c)) (cs : List γ) :
    SucceedsIff (∀ c ∈ cs, C c) (List.Forall₂ R cs) (cs.mapM f) := by
  induction cs with
  | nil => exact (ok .nil).congr (iff_of_true trivial fun _ hmem => nomatch hmem)
  | cons c rest ih =>
    have hboth : SucceedsIff (C c ∧ (∀ c ∈ rest, C c) ∧ True) (List.Forall₂ R (c :: rest))
        ((c :: rest).mapM f) := by
      rw [List.mapM_cons]
      exact (h c).bind fun a ha => ih.bind fun as has => ok (.cons ha has)
    exact hboth.congr (by rw [List.forall_mem_cons, and_true])

end SucceedsIff

end DataLink
