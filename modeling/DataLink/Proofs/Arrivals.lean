import DataLink.Proofs.Transmission

/-!
# What cells hold in the end

Several leaves may have one cell. The last of them in wire order that assigns the cell decides
what it holds. A leaf whose cell is retained assigns nothing if nil arrives.
-/

namespace DataLink

namespace Cells

/-- The kind of the cell of a name, if the cell exists. -/
def kind? (cells : Cells) (name : String) : Option CellKind := (cells.get? name).map Cell.kind

/-- Assignments keep the kinds of cells. -/
theorem kind?_put (cells : Cells) (name other : String) (value : Option Value) :
    (cells.put name value).kind? other = cells.kind? other := by
  rw [kind?, get?_put, Option.map_map, kind?]
  congr 1
  funext c
  rw [Function.comp_apply]
  split
  · exact c.kind_put value
  · rfl

/-- Assignments keep the kinds of cells. -/
theorem kind?_replay (cells : Cells) (writes : List Assignment) (name : String) :
    (cells.replay writes).kind? name = cells.kind? name := by
  induction writes generalizing cells with
  | nil => rfl
  | cons w rest ih => rw [replay, List.foldl_cons, ← replay, ih, kind?_put]

/-- The assigned cell exists and is of the kind of the value. -/
def Accepts (cells : Cells) (w : Assignment) : Prop :=
  ∃ kind, cells.kind? w.cell = some kind ∧ ∀ v, w.value = some v → v.kind = kind

/-- An assignment changes the value of its own cell and of no other one. -/
theorem value?_put {cells : Cells} {w : Assignment} (h : cells.Accepts w) (name : String) :
    (cells.put w.cell w.value).value? name =
      if w.cell = name then w.value else cells.value? name := by
  rw [value?, get?_put]
  by_cases hname : w.cell = name
  · obtain ⟨kind, hkind, hvalue⟩ := h
    obtain ⟨c, hc, rfl⟩ := Option.map_eq_some_iff.mp hkind
    rw [hname] at hc
    rw [hc, if_pos hname, Option.map_some, if_pos hname.symm, Option.bind_some]
    cases hw : w.value with
    | none => exact c.value?_put_none
    | some v => exact Cell.value?_put (hvalue v hw)
  · rw [if_neg hname, value?]
    congr 1
    simp only [if_neg (Ne.symm hname), Option.map_id']

/-- The last assignment to a cell decides what it holds. -/
theorem value?_replay {cells : Cells} {writes : List Assignment}
    (h : ∀ w ∈ writes, cells.Accepts w) (name : String) :
    (cells.replay writes).value? name =
      match writes.reverse.find? fun w => w.cell = name with
      | some w => w.value
      | none => cells.value? name := by
  induction writes generalizing cells with
  | nil => rfl
  | cons w rest ih =>
    obtain ⟨hfirst, hrest⟩ := List.forall_mem_cons.mp h
    have hrest' : ∀ w' ∈ rest, (cells.put w.cell w.value).Accepts w' := by
      intro w' hw'
      obtain ⟨kind, hkind, hvalue⟩ := hrest w' hw'
      exact ⟨kind, (kind?_put _ _ _ _).trans hkind, hvalue⟩
    have hothers := ih hrest'
    rw [value?_put hfirst] at hothers
    rw [replay, List.foldl_cons, ← replay, hothers, List.reverse_cons, List.find?_append]
    cases rest.reverse.find? fun w => w.cell = name with
    | some later => rfl
    | none => by_cases hname : w.cell = name <;> simp [hname]

/-- A cell that no assignment is to keeps its value. -/
theorem value?_replay_of_not_mem {cells : Cells} {writes : List Assignment} {name : String}
    (h : name ∉ writes.map Assignment.cell) : (cells.replay writes).value? name = cells.value? name := by
  have hnone : (writes.filter fun w => w.cell = name) = [] := by
    rw [List.filter_eq_nil_iff]
    intro w hw hname
    exact h (of_decide_eq_true hname ▸ List.mem_map_of_mem hw)
  rw [value?, get?_replay, hnone, value?]
  cases cells.get? name <;> rfl

end Cells

namespace Leaf

/-- Whether the leaf assigns its cell at the receiver when it is sent for these cells. -/
noncomputable def assigns (leaf : Leaf) (cells : Cells) : Bool :=
  !((leaf.arrival (cells.value? leaf.binding.cell)).isNone && leaf.binding.retained)

/-- The last of the leaves in wire order that assigns the cell of a name. -/
noncomputable def lastTo? (leaves : List Leaf) (cells : Cells) (name : String) : Option Leaf :=
  leaves.reverse.find? fun leaf => leaf.binding.cell = name && leaf.assigns cells

/-- What the cell of a name holds at the receiver after the leaves have arrived, when it held
what was found before. -/
noncomputable def settled (leaves : List Leaf) (cells found : Cells) (name : String) : Option Value :=
  match lastTo? leaves cells name with
  | some leaf => leaf.arrival (cells.value? name)
  | none => found.value? name

/-- The first leaf is the last one to assign a cell only if no other leaf does. -/
theorem lastTo?_cons (leaf : Leaf) (rest : List Leaf) (cells : Cells) (name : String) :
    lastTo? (leaf :: rest) cells name =
      (lastTo? rest cells name).or
        (if leaf.binding.cell = name ∧ leaf.assigns cells = true then some leaf else none) := by
  simp only [lastTo?, List.reverse_cons, List.find?_append, List.find?_singleton,
    Bool.and_eq_true, decide_eq_true_eq]

/-- A single leaf assigns its cell or nothing. -/
theorem find?_relays_of_one (leaf : Leaf) (cells : Cells) (name : String) :
    ((leaf.relays cells).reverse.find? fun w => w.cell = name) =
      if leaf.binding.cell = name ∧ leaf.assigns cells = true then
        some ⟨name, leaf.arrival (cells.value? name)⟩ else none := by
  by_cases hname : leaf.binding.cell = name
  · subst hname
    cases hnil : (leaf.arrival (cells.value? leaf.binding.cell)).isNone &&
        leaf.binding.retained <;> simp [relays, assigns, hnil]
  · rw [if_neg fun h => hname h.1, relays]
    split <;> simp [hname]

/-- The last assignment to a cell is the one of the last leaf that assigns it. -/
theorem find?_relays (leaves : List Leaf) (cells : Cells) (name : String) :
    ((leaves.flatMap fun leaf => leaf.relays cells).reverse.find? fun w => w.cell = name) =
      (lastTo? leaves cells name).map fun leaf => ⟨name, leaf.arrival (cells.value? name)⟩ := by
  induction leaves with
  | nil => rfl
  | cons leaf rest ih =>
    rw [List.flatMap_cons, List.reverse_append, List.find?_append, ih, find?_relays_of_one,
      lastTo?_cons]
    cases lastTo? rest cells name with
    | some later => rfl
    | none =>
      rw [Option.map_none, Option.none_or, Option.none_or]
      split <;> rfl

/-- What leaves relay is accepted by cells of their kinds. -/
theorem accepts_of_mem_relays {leaves : List Leaf} {cells found : Cells}
    (h : ∀ leaf ∈ leaves, found.kind? leaf.binding.cell = some leaf.kind) :
    ∀ w ∈ leaves.flatMap fun leaf => leaf.relays cells, found.Accepts w := by
  intro w hw
  obtain ⟨leaf, hleaf, hw⟩ := List.mem_flatMap.mp hw
  obtain rfl := Leaf.eq_of_mem_relays hw
  exact ⟨leaf.kind, h leaf hleaf, fun v hv => Leaf.kind_arrival hv⟩

/-- The last leaf that assigns a cell decides what it holds. -/
theorem value?_replay_relays {leaves : List Leaf} {cells found : Cells}
    (h : ∀ leaf ∈ leaves, found.kind? leaf.binding.cell = some leaf.kind) (name : String) :
    (found.replay (leaves.flatMap fun leaf => leaf.relays cells)).value? name =
      settled leaves cells found name := by
  rw [Cells.value?_replay (accepts_of_mem_relays h), find?_relays, settled]
  cases lastTo? leaves cells name <;> rfl

end Leaf

end DataLink
