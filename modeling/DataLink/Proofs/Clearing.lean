import DataLink.Proofs.Atomicity
import DataLink.Proofs.Station

/-!
# What failsafe clears

Failsafe reaches every field and every bit source, however deep it lies in its envelope. It clears
the cells that one of them writes without retaining, and no others. What one leaf retains or only
reads does not protect a cell from another leaf that clears it.
-/

namespace DataLink

namespace Packet

/-- A field or a bit source of the packet, at whatever depth, is attached to a cell in this way. -/
inductive Attaches (b : Binding) : Packet → Prop where
  | field {f : Field} (h : f.binding = b) : Attaches b (.field f)
  | source {s : BitSource} {sources : List BitSource} (hmem : s ∈ sources) (h : s.binding = b) :
    Attaches b (.bits sources)
  | sequence {p : Packet} {packets : List Packet} (hmem : p ∈ packets) (h : Attaches b p) :
    Attaches b (.sequence packets)
  | signature {p : Packet} {sig : Signature} {packets : List Packet} (hmem : p ∈ packets)
    (h : Attaches b p) : Attaches b (.signature sig packets)
  | envelope {p : Packet} {header : Header} {packets : List Packet} (hmem : p ∈ packets)
    (h : Attaches b p) : Attaches b (.envelope header packets)

/-- The leaves of packets in sequence are those of each packet. -/
theorem mem_allLeaves_iff {packets : List Packet} {leaf : Leaf} :
    leaf ∈ allLeaves packets ↔ ∃ p ∈ packets, leaf ∈ p.leaves := by
  induction packets with
  | nil => simp [allLeaves]
  | cons p rest ih => rw [allLeaves, List.mem_append, ih, List.exists_mem_cons_iff]

mutual

/-- Every leaf of a packet is attached to its cell by the packet. -/
theorem attaches_of_mem_leaves : ∀ {p : Packet} {leaf : Leaf}, leaf ∈ p.leaves →
    p.Attaches leaf.binding
  | .field f, leaf, h => by
    obtain rfl := List.mem_singleton.mp h
    exact .field rfl
  | .bits sources, leaf, h => by
    obtain ⟨s, hs, rfl⟩ := List.mem_map.mp h
    exact .source hs rfl
  | .sequence packets, leaf, h => by
    obtain ⟨p, hp, hattaches⟩ := exists_attaches_of_mem h
    exact .sequence hp hattaches
  | .signature sig packets, leaf, h => by
    obtain ⟨p, hp, hattaches⟩ := exists_attaches_of_mem h
    exact .signature hp hattaches
  | .envelope header packets, leaf, h => by
    obtain ⟨p, hp, hattaches⟩ := exists_attaches_of_mem h
    exact .envelope hp hattaches

/-- Every leaf of packets in sequence is attached to its cell by one of them. -/
theorem exists_attaches_of_mem : ∀ {packets : List Packet} {leaf : Leaf},
    leaf ∈ allLeaves packets → ∃ p ∈ packets, p.Attaches leaf.binding
  | p :: rest, leaf, h => by
    rcases List.mem_append.mp h with hfirst | hothers
    · exact ⟨p, List.mem_cons_self, attaches_of_mem_leaves hfirst⟩
    · obtain ⟨q, hq, hattaches⟩ := exists_attaches_of_mem hothers
      exact ⟨q, List.mem_cons_of_mem p hq, hattaches⟩

end

/-- The leaves are all that is attached to cells. -/
theorem attaches_iff {p : Packet} {b : Binding} :
    p.Attaches b ↔ ∃ leaf ∈ p.leaves, leaf.binding = b := by
  constructor
  · intro h
    induction h with
    | @field f h => exact ⟨.field f, List.mem_singleton_self _, h⟩
    | @source s sources hmem h => exact ⟨.source s, List.mem_map_of_mem hmem, h⟩
    | sequence hmem _ ih =>
      obtain ⟨leaf, hleaf, hbinding⟩ := ih
      exact ⟨leaf, mem_allLeaves_iff.mpr ⟨_, hmem, hleaf⟩, hbinding⟩
    | signature hmem _ ih =>
      obtain ⟨leaf, hleaf, hbinding⟩ := ih
      exact ⟨leaf, mem_allLeaves_iff.mpr ⟨_, hmem, hleaf⟩, hbinding⟩
    | envelope hmem _ ih =>
      obtain ⟨leaf, hleaf, hbinding⟩ := ih
      exact ⟨leaf, mem_allLeaves_iff.mpr ⟨_, hmem, hleaf⟩, hbinding⟩
  · rintro ⟨leaf, hleaf, rfl⟩
    exact attaches_of_mem_leaves hleaf

end Packet

/-- Whether failsafe clears the cell of a name through this binding. -/
def Binding.isCleared (b : Binding) (name : String) : Bool :=
  b.cell = name && b.writable && !b.retained

/-- A binding clears the cell of a name once or never. -/
theorem Binding.filter_clearings (b : Binding) (name : String) :
    (b.clearings.filter fun w => w.cell = name) =
      if b.isCleared name then [⟨name, none⟩] else [] := by
  obtain ⟨cell, writable, retained⟩ := b
  by_cases hname : cell = name
  · subst hname
    cases writable <;> cases retained <;> simp [clearings, writes, isCleared]
  · cases writable <;> cases retained <;> simp [clearings, writes, isCleared, hname]

namespace Protocol

/-- A field or a bit source of some envelope is attached to a cell in this way. -/
def Attaches (p : Protocol) (b : Binding) : Prop := ∃ e ∈ p.envelopes, e.packet.Attaches b

/-- Some field or bit source writes the cell of this name and does not retain it. -/
def Clears (p : Protocol) (name : String) : Prop :=
  ∃ b, p.Attaches b ∧ b.cell = name ∧ b.writable = true ∧ b.retained = false

/-- The leaves through which failsafe clears the cell of a name, in wire order. -/
def clearers (p : Protocol) (name : String) : List Leaf :=
  (p.envelopes.flatMap Envelope.leaves).filter fun leaf => leaf.binding.isCleared name

/-- A protocol clears a cell exactly if some binding of it does. -/
theorem clears_iff {p : Protocol} {name : String} : p.Clears name ↔ p.clearers name ≠ [] := by
  rw [ne_eq, clearers, List.filter_eq_nil_iff]
  constructor
  · rintro ⟨b, ⟨e, he, hattaches⟩, hcell, hwritable, hretained⟩ hnone
    obtain ⟨leaf, hleaf, rfl⟩ := Packet.attaches_iff.mp hattaches
    refine hnone leaf (List.mem_flatMap.mpr ⟨e, he, hleaf⟩) ?_
    rw [Binding.isCleared, decide_eq_true hcell, hwritable, hretained]
    rfl
  · intro hsome
    obtain ⟨leaf, hmem, hcleared⟩ : ∃ leaf ∈ p.envelopes.flatMap Envelope.leaves,
        leaf.binding.isCleared name = true := by
      by_contra hnone
      exact hsome fun leaf hmem hcleared => hnone ⟨leaf, hmem, hcleared⟩
    obtain ⟨e, he, hleaf⟩ := List.mem_flatMap.mp hmem
    simp only [Binding.isCleared, Bool.and_eq_true, decide_eq_true_eq, Bool.not_eq_true']
      at hcleared
    obtain ⟨⟨hcell, hwritable⟩, hretained⟩ := hcleared
    exact ⟨leaf.binding, ⟨e, he, Packet.attaches_iff.mpr ⟨leaf, hleaf, rfl⟩⟩, hcell, hwritable,
      hretained⟩

/-- Each of these leaves clears the cell once. -/
theorem filter_clearings (p : Protocol) (name : String) :
    (p.clearings.filter fun w => w.cell = name) =
      List.replicate (p.clearers name).length ⟨name, none⟩ := by
  have hclearings : p.clearings = (p.envelopes.flatMap Envelope.leaves).flatMap Leaf.clearings := by
    rw [List.flatMap_assoc]
    rfl
  rw [hclearings, clearers]
  induction p.envelopes.flatMap Envelope.leaves with
  | nil => rfl
  | cons leaf rest ih =>
    rw [List.flatMap_cons, List.filter_append, ih, Leaf.clearings, Binding.filter_clearings,
      List.filter_cons]
    split
    · rfl
    · rfl

end Protocol

namespace Cell

/-- The cell after it was set to nil so many times. -/
def cleared (c : Cell) : Nat → Cell
  | 0 => c
  | count + 1 => (c.put none).cleared count

/-- Nil that is assigned time and again clears the cell as many times. -/
theorem foldl_clearing (c : Cell) (name : String) (count : Nat) :
    (List.replicate count (⟨name, none⟩ : Assignment)).foldl (fun c w => c.put w.value) c =
      c.cleared count := by
  induction count generalizing c with
  | zero => rfl
  | succ count ih => exact ih (c.put none)

/-- Clearing a cell keeps its kind. -/
@[simp] theorem kind_cleared (c : Cell) (count : Nat) : (c.cleared count).kind = c.kind := by
  induction count generalizing c with
  | zero => rfl
  | succ count ih => rw [cleared, ih, kind_put]

/-- Each time that a cell is cleared is counted. -/
@[simp] theorem serial_cleared (c : Cell) (count : Nat) :
    (c.cleared count).serial = c.serial + UInt64.ofNat count := by
  induction count generalizing c with
  | zero => exact (UInt64.add_zero c.serial).symm
  | succ count ih =>
    rw [cleared, ih, serial_put_none, UInt64.ofNat_add, UInt64.add_assoc, UInt64.add_comm 1]
    rfl

/-- A cell that was cleared has no value. -/
theorem value?_cleared (c : Cell) {count : Nat} (h : count ≠ 0) :
    (c.cleared count).value? = none := by
  induction count generalizing c with
  | zero => exact absurd rfl h
  | succ count ih =>
    by_cases hlast : count = 0
    · subst hlast
      exact c.value?_put_none
    · exact ih (c.put none) hlast

end Cell

namespace Cells

/-- Assigning a cell brings up no names and loses none. -/
@[simp] theorem names_put (cells : Cells) (name : String) (value : Option Value) :
    (cells.put name value).names = cells.names := by
  rw [names, put, List.map_map]
  refine List.map_congr_left fun e _ => ?_
  simp only [Function.comp_apply]
  split <;> rfl

/-- Assignments neither declare cells nor remove them. -/
@[simp] theorem names_replay (cells : Cells) (writes : List Assignment) :
    (cells.replay writes).names = cells.names := by
  induction writes generalizing cells with
  | nil => rfl
  | cons w rest ih => exact (ih _).trans (cells.names_put w.cell w.value)

end Cells

/-- Failsafe clears a cell once for each leaf that writes it without retaining it. -/
theorem Protocol.get?_failsafe (p : Protocol) (cells : Cells) (name : String) :
    (p.failsafe cells).get? name =
      (cells.get? name).map fun c => c.cleared (p.clearers name).length := by
  rw [failsafe_eq_replay, Cells.get?_replay, filter_clearings]
  simp only [Cell.foldl_clearing]

/-- Failsafe clears exactly the cells that some field or bit source writes and does not retain. Of
any other cell it leaves the value and the serial, even if the cell is read or retained somewhere,
and it leaves the protocol with all that is staged and counted in it. -/
theorem failsafe_clears_exactly (s : Station) (name : String) :
    (s.call .failsafe).2.protocol = s.protocol ∧
      (s.call .failsafe).2.cells.names = s.cells.names ∧
      (s.protocol.Clears name → ∀ c, s.cells.get? name = some c →
        ∃ c', (s.call .failsafe).2.cells.get? name = some c' ∧ c'.kind = c.kind ∧
          c'.value? = none ∧
          c'.serial = c.serial + UInt64.ofNat (s.protocol.clearers name).length) ∧
      (¬ s.protocol.Clears name →
        (s.call .failsafe).2.cells.get? name = s.cells.get? name) := by
  have hcell : (s.call .failsafe).2.cells.get? name =
      (s.cells.get? name).map fun c => c.cleared (s.protocol.clearers name).length :=
    s.protocol.get?_failsafe s.cells name
  refine ⟨rfl, ?_, ?_, ?_⟩
  · exact (congrArg Cells.names (s.protocol.failsafe_eq_replay s.cells)).trans
      (Cells.names_replay _ _)
  · intro hclears c hc
    have hsome : (s.protocol.clearers name).length ≠ 0 :=
      fun h => Protocol.clears_iff.mp hclears (List.length_eq_zero_iff.mp h)
    rw [hc, Option.map_some] at hcell
    exact ⟨_, hcell, c.kind_cleared _, c.value?_cleared hsome, c.serial_cleared _⟩
  · intro hkeeps
    have hnone : s.protocol.clearers name = [] :=
      Classical.byContradiction fun h => hkeeps (Protocol.clears_iff.mpr h)
    rw [hcell, hnone]
    exact Option.map_id_apply

namespace Ferry

/-- The lamp is retained in one place and not in another one, where it stands next to the horn, and
the horn is retained where it is written. -/
def bridge : Envelope :=
  { header := ⟨[0xAD], 1, 0, 0, by decide, sendEvery_ne⟩
    packets := [.bits [.flag ⟨⟨"lamp", true, true⟩, false⟩],
      .signature signature [.sequence [.bits [.flag ⟨⟨"lamp", true, false⟩, false⟩,
        .flag ⟨⟨"horn", true, true⟩, false⟩]]],
      .bits [.flag ⟨⟨"horn", false, false⟩, false⟩]]
    staged := [none, some (.bool true), none, none] }

/-- Both are on. -/
def sounding : Station :=
  ⟨⟨[bridge]⟩, (cells.put "lamp" (some (.bool true))).put "horn" (some (.bool true))⟩

/-- The lamp goes out, and the horn stays as it is. -/
theorem failsafe_clears_lamp :
    (∃ c', (sounding.call .failsafe).2.cells.get? "lamp" = some c' ∧ c'.value? = none ∧
      c'.serial = 2) ∧
      (sounding.call .failsafe).2.cells.get? "horn" = some (.bool ⟨some true, 1⟩) := by
  have hlamp : sounding.protocol.Clears "lamp" :=
    Protocol.clears_iff.mpr (by decide)
  have hhorn : ¬ sounding.protocol.Clears "horn" := fun h =>
    Protocol.clears_iff.mp h (by decide)
  obtain ⟨-, -, hclears, -⟩ := failsafe_clears_exactly sounding "lamp"
  obtain ⟨-, -, -, hkeeps⟩ := failsafe_clears_exactly sounding "horn"
  obtain ⟨c', hc', -, hvalue, hserial⟩ := hclears hlamp (.bool ⟨some true, 1⟩) (by decide)
  exact ⟨⟨c', hc', hvalue, hserial.trans (by decide)⟩, (hkeeps hhorn).trans (by decide)⟩

end Ferry

end DataLink
