import DataLink.Protocol

/-!
# Assignments to cells

Delivering staged values and clearing cells both come down to assignments in some order.
Here these sequences are computed on their own, so that runs can be compared by what they
assign. Carried out one after another they have exactly the effect on the cells.
-/

namespace DataLink

/-- An assignment of a value, or of nil, to the cell of a name. -/
structure Assignment where
  cell : String
  value : Option Value
  deriving DecidableEq, Repr

/-- Carries out assignments in order. -/
def Cells.replay (cells : Cells) (writes : List Assignment) : Cells :=
  writes.foldl (fun cells w => cells.put w.cell w.value) cells

/-- No assignments leave the cells as they are. -/
@[simp] theorem Cells.replay_nil (cells : Cells) : cells.replay [] = cells := rfl

/-- Assignments in sequence are carried out in sequence. -/
@[simp] theorem Cells.replay_append (cells : Cells) (first second : List Assignment) :
    cells.replay (first ++ second) = (cells.replay first).replay second := by
  simp only [Cells.replay, List.foldl_append]

/-- Replaying the assignments of a list's members is one fold over the members. -/
theorem Cells.replay_flatMap {α : Type} (cells : Cells) (members : List α)
    (writes : α → List Assignment) :
    cells.replay (members.flatMap writes) =
      members.foldl (fun cells m => cells.replay (writes m)) cells := by
  induction members generalizing cells with
  | nil => rfl
  | cons m members ih => rw [List.flatMap_cons, Cells.replay_append, ih, List.foldl_cons]

/-- Assigning a cell leaves all others as they are. -/
theorem Cells.get?_put (cells : Cells) (name other : String) (value : Option Value) :
    (cells.put name value).get? other =
      (cells.get? other).map fun c => if other = name then c.put value else c := by
  simp only [Cells.get?, Cells.put, List.find?_map, Option.map_map]
  have hsame : ((fun e : String × Cell => decide (e.1 = other)) ∘ fun e : String × Cell =>
      if e.1 = name then (e.1, e.2.put value) else e) = fun e => decide (e.1 = other) := by
    funext e
    simp only [Function.comp_apply]
    split <;> rfl
  rw [hsame]
  cases hfind : cells.entries.find? fun e => decide (e.1 = other) with
  | none => rfl
  | some e =>
    have hname := List.find?_some hfind
    rw [decide_eq_true_eq] at hname
    subst hname
    simp only [Option.map_some, Function.comp_apply]
    split <;> rfl

/-- A cell undergoes the assignments to its name, in order, and no others. -/
theorem Cells.get?_replay (cells : Cells) (writes : List Assignment) (name : String) :
    (cells.replay writes).get? name =
      (cells.get? name).map fun c =>
        (writes.filter fun w => w.cell = name).foldl (fun c w => c.put w.value) c := by
  induction writes generalizing cells with
  | nil => simp
  | cons w rest ih =>
    rw [Cells.replay, List.foldl_cons, ← Cells.replay, ih, Cells.get?_put, Option.map_map,
      List.filter_cons]
    congr 1
    funext c
    simp only [Function.comp_apply, decide_eq_true_eq]
    by_cases h : name = w.cell
    · rw [if_pos h, if_pos h.symm, List.foldl_cons]
    · rw [if_neg h, if_neg (Ne.symm h)]

namespace Binding

/-- The assignments that a binding lets through. -/
def writes (b : Binding) (value : Option Value) : List Assignment :=
  if b.writable then [⟨b.cell, value⟩] else []

/-- The assignments that deliver a staged value. -/
def deliveries (b : Binding) (staged : Option Value) : List Assignment :=
  if staged.isNone && b.retained then [] else b.writes staged

/-- The assignments that clear the cell on failsafe. -/
def clearings (b : Binding) : List Assignment := if b.retained then [] else b.writes none

/-- Putting a value makes the assignments that the binding allows. -/
theorem put_eq_replay (b : Binding) (cells : Cells) (value : Option Value) :
    b.put cells value = cells.replay (b.writes value) := by
  unfold put writes
  by_cases h : b.writable = true
  · simp only [if_pos h, Cells.replay, List.foldl_cons, List.foldl_nil]
  · simp only [if_neg h, Cells.replay_nil]

/-- Delivering through a binding makes its deliveries. -/
theorem deliver_eq_replay (b : Binding) (cells : Cells) (staged : Option Value) :
    b.deliver cells staged = cells.replay (b.deliveries staged) := by
  unfold deliver deliveries
  by_cases h : (staged.isNone && b.retained) = true
  · simp only [if_pos h, Cells.replay_nil]
  · simp only [if_neg h, put_eq_replay]

/-- Failsafe makes the clearings of the binding. -/
theorem failsafe_eq_replay (b : Binding) (cells : Cells) :
    b.failsafe cells = cells.replay b.clearings := by
  unfold failsafe clearings
  by_cases h : b.retained = true
  · simp only [if_pos h, Cells.replay_nil]
  · simp only [if_neg h, put_eq_replay]

end Binding

namespace Leaf

/-- The assignments that deliver a value staged for the leaf. -/
def deliveries (leaf : Leaf) (staged : Option Value) : List Assignment :=
  leaf.binding.deliveries (staged.map leaf.restore)

/-- The assignments that clear the leaf's cell on failsafe. -/
def clearings (leaf : Leaf) : List Assignment := leaf.binding.clearings

end Leaf

namespace Staged

/-- The assignments that deliver staged values, in wire order. -/
def writes (leaves : List Leaf) (staged : Staged) : List Assignment :=
  (leaves.zip staged).flatMap fun (leaf, value) => leaf.deliveries value

/-- The assignments that clear the leaves' cells, in wire order. -/
def clearings (leaves : List Leaf) : List Assignment := leaves.flatMap Leaf.clearings

/-- Delivering staged values makes the assignments of all leaves in order. -/
theorem deliver_eq_replay (leaves : List Leaf) (staged : Staged) (cells : Cells) :
    deliver leaves staged cells = cells.replay (writes leaves staged) := by
  rw [writes, Cells.replay_flatMap, deliver]
  congr 1
  funext cells leaf
  exact Binding.deliver_eq_replay _ _ _

/-- Failsafe makes the clearings of all leaves in order. -/
theorem failsafe_eq_replay (leaves : List Leaf) (cells : Cells) :
    failsafe leaves cells = cells.replay (clearings leaves) := by
  rw [clearings, Cells.replay_flatMap, failsafe]
  congr 1
  funext cells leaf
  exact Binding.failsafe_eq_replay _ _

/-- The first leaf delivers before the others. -/
theorem writes_cons (leaf : Leaf) (leaves : List Leaf) (value : Option Value)
    (staged : Staged) :
    writes (leaf :: leaves) (value :: staged) = leaf.deliveries value ++ writes leaves staged := by
  rw [writes, List.zip_cons_cons, List.flatMap_cons, ← writes]

/-- Once every leaf has a new value, nothing staged before is delivered. -/
theorem writes_overlay {leaves : List Leaf} {old new : Staged}
    (hlength : new.length = leaves.length) :
    writes leaves (old.overlay new) = writes leaves new := by
  have hzip : leaves.zip (new ++ old.drop new.length) = leaves.zip new := by
    have h := @List.zip_append _ _ leaves [] new (old.drop new.length) hlength.symm
    simpa using h
  rw [writes, overlay, hzip, writes]

end Staged

namespace Envelope

/-- The assignments that deliver what is staged. -/
def writes (e : Envelope) : List Assignment := Staged.writes e.leaves e.staged

/-- The assignments that clear the envelope's cells on failsafe. -/
def clearings (e : Envelope) : List Assignment := Staged.clearings e.leaves

end Envelope

namespace Protocol

/-- The assignments that deliver what is staged for one envelope. -/
def writes (p : Protocol) (envelope : Nat) : List Assignment :=
  match p.envelopes[envelope]? with
  | some e => e.writes
  | none => []

/-- The assignments that clear the cells of all envelopes on failsafe. -/
def clearings (p : Protocol) : List Assignment := p.envelopes.flatMap Envelope.clearings

/-- Delivering an envelope carries out its assignments and nothing else. -/
theorem deliver_eq_replay (p : Protocol) (envelope : Nat) (cells : Cells) :
    p.deliver envelope cells = cells.replay (p.writes envelope) := by
  unfold deliver writes
  cases p.envelopes[envelope]? with
  | none => rfl
  | some e => exact Staged.deliver_eq_replay _ _ _

/-- Failsafe carries out the clearing assignments and nothing else. -/
theorem failsafe_eq_replay (p : Protocol) (cells : Cells) :
    p.failsafe cells = cells.replay p.clearings := by
  rw [clearings, Cells.replay_flatMap, failsafe]
  congr 1
  funext cells e
  exact Staged.failsafe_eq_replay _ _

end Protocol

end DataLink
