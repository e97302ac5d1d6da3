import DataLink.Proofs.FloatDelivery
import DataLink.Proofs.ReadOnly

/-!
# Where the values of cells come from

Whatever a link assigns to a cell, it assigns for one of its leaves. The leaf writes this cell, and
a value is of the leaf's kind and never what is not a number. So what holds of the values that
leaves and surroundings assign holds of all values that a cell ever has.
-/

namespace DataLink

/-- Values that arrive: all but what is not a number. -/
def Value.IsNumber : Value → Prop
  | .float x => x.isNaN = false
  | _ => True

/-- Values that a leaf may deliver. -/
structure Leaf.Delivers (leaf : Leaf) (v : Value) : Prop where
  kind : v.kind = leaf.kind
  isNumber : v.IsNumber

/-- The offset is finite, so adding it makes a number of every number. -/
theorem FloatField.isNaN_add_shift (f : FloatField) {x : Binary64} (h : x.isNaN = false) :
    (x.add f.shift).isNaN = false := by
  cases hinf : x.isInfinite with
  | true => rw [Binary64.add_of_isInfinite hinf f.isFinite_shift, h]
  | false => exact Binary64.isNaN_add (Binary64.isFinite_of_isNaN_eq_false h hinf) f.isFinite_shift

/-- A field delivers what it decodes, restored. -/
theorem Leaf.delivers_field {f : Field} {bytes : Bytes} {v : Value}
    (h : f.decode bytes = some v) : (Leaf.field f).Delivers ((Leaf.field f).restore v) := by
  cases f with
  | signed f =>
    cases h
    exact ⟨rfl, trivial⟩
  | unsigned f =>
    cases h
    exact ⟨rfl, trivial⟩
  | float f =>
    simp only [Field.decode, FloatField.decode] at h
    split at h
    · cases h
    · next hnumber =>
      cases h
      exact ⟨rfl, f.isNaN_add_shift (Bool.eq_false_of_not_eq_true hnumber)⟩

/-- A source delivers what it decodes, restored. -/
theorem Leaf.delivers_source (s : BitSource) (bits : Bits) :
    (Leaf.source s).Delivers ((Leaf.source s).restore (s.decode bits)) := by
  cases s <;> exact ⟨rfl, trivial⟩

/-! ### Decoded values -/

/-- What is staged for leaves, in wire order, is what they may deliver. -/
def Staged.Deliverable (leaves : List Leaf) (staged : Staged) : Prop :=
  ∀ leaf v, (leaf, some v) ∈ leaves.zip staged → leaf.Delivers (leaf.restore v)

namespace Staged.Deliverable

/-- What can be delivered for two lists of leaves can be delivered for both together. -/
theorem append {first others : List Leaf} {staged more : Staged}
    (hlength : staged.length = first.length) (h : Deliverable first staged)
    (h' : Deliverable others more) : Deliverable (first ++ others) (staged ++ more) := by
  intro leaf v hmem
  rw [List.zip_append hlength.symm, List.mem_append] at hmem
  exact hmem.elim (h leaf v) (h' leaf v)

/-- What sources decode can be delivered for them. -/
theorem sources (ss : List BitSource) (bits : Bits) :
    Deliverable (ss.map .source) ((BitSource.decodeAll ss bits).map some) := by
  induction ss generalizing bits with
  | nil =>
    intro leaf v hmem
    cases hmem
  | cons s rest ih =>
    intro leaf v hmem
    rcases List.mem_cons.mp hmem with heq | hmem
    · cases heq
      exact Leaf.delivers_source s _
    · exact ih _ leaf v hmem

end Staged.Deliverable

namespace Packet

mutual

/-- What a packet stages when it is decoded is what its leaves may deliver. -/
theorem deliverable_decode {n : Nat} : ∀ {p : Packet} {input : Bytes},
    (p.decode input).outcome = .ok n → Staged.Deliverable p.leaves (p.decode input).staged
  | p, input, h => by
    have hle := (decode_ok h).2.1
    cases p with
    | field f =>
      simp only [size] at hle
      simp only [decode, needing_of_le _ hle]
      intro leaf v hmem
      obtain ⟨rfl, hdecode⟩ := Prod.mk.inj (List.mem_singleton.mp hmem)
      exact Leaf.delivers_field hdecode.symm
    | bits sources =>
      simp only [size] at hle
      simp only [decode, needing_of_le _ hle]
      exact .sources sources _
    | sequence packets =>
      simp only [size] at hle
      simp only [decode, needing_of_le _ hle] at h ⊢
      exact deliverable_decodeAll h
    | signature sig packets =>
      simp only [size] at hle
      simp only [decode, needing_of_le _ hle] at h ⊢
      split at h
      · obtain ⟨m, hm, -⟩ := map_ok_iff.mp h
        rw [if_pos ‹_›]
        exact deliverable_decodeAll hm
      · cases h
    | envelope header packets =>
      simp only [size] at hle
      simp only [decode, needing_of_le _ hle] at h ⊢
      split at h
      · obtain ⟨m, hm, -⟩ := map_ok_iff.mp h
        rw [if_pos ‹_›]
        exact deliverable_decodeAll hm
      · cases h

/-- What packets in sequence accept can be delivered for their leaves. -/
theorem deliverable_decodeAll {n : Nat} : ∀ {packets : List Packet} {input : Bytes},
    (decodeAll packets input).outcome = .ok n →
      Staged.Deliverable (allLeaves packets) (decodeAll packets input).staged
  | [], input, h => by
    intro leaf v hmem
    cases hmem
  | p :: rest, input, h => by
    cases hfirst : (p.decode input).outcome with
    | error fault =>
      rw [decodeAll_cons_of_error hfirst] at h
      cases h
    | ok k =>
      rw [decodeAll_cons_of_ok hfirst] at h ⊢
      obtain ⟨m, hm, -⟩ := map_ok_iff.mp h
      exact .append (decode_ok hfirst).2.2 (deliverable_decode hfirst) (deliverable_decodeAll hm)

end

end Packet

/-! ### Assignments -/

/-- Assignments that an envelope's leaves make: to the cell of one that writes it, and of nothing or
of what this leaf may deliver. -/
def Reader.Makes (r : Reader) (w : Assignment) : Prop :=
  ∃ leaf ∈ r.leaves, leaf.binding.writable = true ∧ leaf.binding.cell = w.cell ∧
    ∀ v, w.value = some v → leaf.Delivers v

/-- Assignments that the leaves of a protocol make. -/
def Protocol.Makes (p : Protocol) (w : Assignment) : Prop := ∃ r ∈ p.readers, r.Makes w

/-- A binding assigns only what it is given, only to its own cell, and only if it writes. -/
theorem Binding.of_mem_writes {b : Binding} {value : Option Value} {w : Assignment}
    (h : w ∈ b.writes value) : b.writable = true ∧ w = ⟨b.cell, value⟩ := by
  unfold writes at h
  split at h
  · next hwritable => exact ⟨hwritable, List.mem_singleton.mp h⟩
  · cases h

/-- A binding delivers only what is staged, only to its own cell, and only if it writes. -/
theorem Binding.of_mem_deliveries {b : Binding} {staged : Option Value} {w : Assignment}
    (h : w ∈ b.deliveries staged) : b.writable = true ∧ w = ⟨b.cell, staged⟩ := by
  unfold deliveries at h
  split at h
  · cases h
  · exact of_mem_writes h

/-- A binding clears only its own cell, and only if it writes. -/
theorem Binding.of_mem_clearings {b : Binding} {w : Assignment} (h : w ∈ b.clearings) :
    b.writable = true ∧ w = ⟨b.cell, none⟩ := by
  unfold clearings at h
  split at h
  · cases h
  · exact of_mem_writes h

/-- Delivering what is deliverable makes assignments of the leaves. -/
theorem Staged.Deliverable.makes {r : Reader} {staged : Staged} (h : Deliverable r.leaves staged) :
    ∀ w ∈ Staged.writes r.leaves staged, r.Makes w := by
  intro w hw
  obtain ⟨⟨leaf, value⟩, hpair, hw⟩ := List.mem_flatMap.mp hw
  obtain ⟨hwritable, rfl⟩ := Binding.of_mem_deliveries hw
  refine ⟨leaf, (List.of_mem_zip hpair).1, hwritable, rfl, ?_⟩
  intro v hv
  obtain ⟨staged, rfl, rfl⟩ := Option.map_eq_some_iff.mp hv
  exact h leaf staged hpair

namespace Protocol

variable {p : Protocol}

/-- Failsafe makes assignments of the leaves. -/
theorem makes_clearings : ∀ w ∈ p.clearings, p.Makes w := by
  intro w hw
  obtain ⟨e, he, hw⟩ := List.mem_flatMap.mp hw
  obtain ⟨leaf, hleaf, hw⟩ := List.mem_flatMap.mp hw
  obtain ⟨hwritable, rfl⟩ := Binding.of_mem_clearings hw
  exact ⟨e.reader, List.mem_map_of_mem he, leaf, hleaf, hwritable, rfl, fun _ => nofun⟩

/-- So does an accepted envelope. -/
theorem makes_bite {input : Bytes} {b : Bite} (h : p.bite? input = some b) :
    ∀ w ∈ b.writes, p.Makes w := by
  cases b with
  | drop fault => simp [Bite.writes]
  | accept eaten writes =>
    obtain ⟨-, hok, rfl⟩ := bite?_eq_accept_iff.mp h
    obtain ⟨e, he, -, -, hdecode, hwrites⟩ := eat_ok hok
    intro w hw
    have hstaged : Staged.Deliverable e.reader.leaves (e.packet.decode input).staged :=
      Packet.deliverable_decode hdecode
    simp only [Bite.writes, hwrites] at hw
    exact ⟨e.reader, List.mem_map_of_mem (List.mem_of_getElem? he), hstaged.makes w hw⟩

/-- Whatever bites assign, they assign for a leaf. -/
theorem makes_eats {input rest : Bytes} {bites : List Bite} (h : p.Eats input bites rest) :
    ∀ w ∈ bites.flatMap Bite.writes, p.Makes w := by
  induction h with
  | nothing => simp
  | bite first _ ih =>
    rw [List.flatMap_cons, List.forall_mem_append]
    exact ⟨makes_bite first, ih⟩

end Protocol

/-- Whatever a cycle assigns, it assigns for a leaf. -/
theorem Link.makes_intake (link : Link) (now : Duration) :
    ∀ w ∈ (link.intake now).writes, link.protocol.Makes w := by
  have hreaders : link.chewed.1.readers = link.protocol.readers := link.protocol.readers_chew _ _
  refine List.forall_mem_append.mpr ⟨?_, ?_⟩
  · exact Protocol.makes_eats (link.protocol.eats_chew link.input.length link.input)
  · intro w hw
    split at hw
    · obtain ⟨r, hr, hmakes⟩ := Protocol.makes_clearings w hw
      exact ⟨r, hreaders ▸ hr, hmakes⟩
    · cases hw

/-! ### Values of cells -/

/-- A cell refuses values of another kind. -/
theorem Cell.put_of_kind_ne {c : Cell} {v : Value} (h : v.kind ≠ c.kind) : c.put (some v) = c := by
  cases c <;> cases v <;> first | rfl | exact absurd rfl h

/-- A cell has the value that was assigned, or it has refused it. -/
theorem Cells.of_value?_put {cells : Cells} {w : Assignment} {name : String} {v : Value}
    (h : (cells.put w.cell w.value).value? name = some v) :
    cells.value? name = some v ∨ w.cell = name ∧ w.value = some v := by
  rw [value?, get?_put] at h
  obtain ⟨c, hc, h⟩ := Option.bind_eq_some_iff.mp h
  obtain ⟨before, hbefore, rfl⟩ := Option.map_eq_some_iff.mp hc
  have hvalue : cells.value? name = before.value? := by rw [value?, hbefore, Option.bind_some]
  rw [hvalue]
  split at h
  · next hname =>
    cases hw : w.value with
    | none =>
      rw [hw, Cell.value?_put_none] at h
      cases h
    | some assigned =>
      rw [hw] at h
      by_cases hkind : assigned.kind = before.kind
      · rw [Cell.value?_put hkind] at h
        exact .inr ⟨hname.symm, h⟩
      · rw [Cell.put_of_kind_ne hkind] at h
        exact .inl h
  · exact .inl h

/-- A value that a cell holds after assignments was there before or is one of those assigned. -/
theorem Cells.of_value?_replay {writes : List Assignment} {name : String} {v : Value}
    {cells : Cells} (h : (cells.replay writes).value? name = some v) :
    cells.value? name = some v ∨ ∃ w ∈ writes, w.cell = name ∧ w.value = some v := by
  induction writes generalizing cells with
  | nil => exact .inl h
  | cons w rest ih =>
    rw [replay, List.foldl_cons, ← replay] at h
    rcases ih h with hput | ⟨w', hw', hlater⟩
    · exact (of_value?_put hput).imp_right fun hw => ⟨w, List.mem_cons_self, hw⟩
    · exact .inr ⟨w', List.mem_cons_of_mem w hw', hlater⟩

namespace Site

variable {s t : Site} {actions : List Action} {log : Log}

/-- All assignments of a run are made by the link's leaves or by its surroundings. -/
theorem Run.writes_made (h : s.Run actions log t) :
    ∀ w ∈ log.writes, s.link.protocol.Makes w ∨ w ∈ actions.flatMap Action.writes := by
  induction h with
  | start => simp [Log.writes]
  | @step actions log t u a e run last ih =>
    intro w hw
    rw [Log.writes_concat, List.mem_append] at hw
    rw [List.flatMap_append, List.mem_append, List.flatMap_singleton]
    rcases hw with hearlier | hlast
    · exact (ih w hearlier).imp_right .inl
    · cases Step.of_step? last with
      | feed bytes => cases hlast
      | discard => cases hlast
      | assign write => exact .inr (.inr hlast)
      | cycle c v hc =>
        simp only [Entry.writes, hc.writes] at hlast
        obtain ⟨r, hr, hmakes⟩ := t.link.makes_intake c.now w hlast
        exact .inl ⟨r, run.readers ▸ hr, hmakes⟩

/-- A value that a cell has was there from the start, or a leaf or the surroundings assigned it. -/
theorem Run.origin (h : s.Run actions log t) {name : String} {v : Value}
    (hv : t.cells.value? name = some v) :
    s.cells.value? name = some v ∨
      (∃ e ∈ s.link.protocol.envelopes, ∃ leaf ∈ e.leaves, leaf.binding.writable = true ∧
        leaf.binding.cell = name ∧ leaf.Delivers v) ∨
      ⟨name, some v⟩ ∈ actions.flatMap Action.writes := by
  rw [h.cells] at hv
  rcases Cells.of_value?_replay hv with hstart | ⟨⟨cell, value⟩, hw, rfl, rfl⟩
  · exact .inl hstart
  · right
    refine (h.writes_made _ hw).imp_left ?_
    rintro ⟨r, hr, leaf, hleaf, hwritable, hcell, hdelivers⟩
    obtain ⟨e, he, rfl⟩ := List.mem_map.mp hr
    exact ⟨e, he, leaf, hleaf, hwritable, hcell, hdelivers v rfl⟩

end Site

end DataLink
