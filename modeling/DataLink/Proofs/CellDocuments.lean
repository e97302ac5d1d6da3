import DataLink.Proofs.CellText
import DataLink.Proofs.Clearing
import DataLink.Proofs.Deliveries
import DataLink.Proofs.InfiniteArrivals
import DataLink.Proofs.Parts

/-!
# Null in the document of cells

A document has null for a cell without a value, and also for a number that is not finite, as it has
no other way to write such a number. No link delivers what is not a number. But an infinity is
delivered to every float cell that a link writes, if it is sent one, and then the document shows
null although the cell has a value. Other cells are told from dead ones by it.
-/

namespace DataLink

/-! ### Documents -/

/-- A value is shown as null exactly if it is not finite. -/
theorem Value.json_eq_null_iff {v : Value} : v.json = .null ↔ ¬ v.Finite := by
  cases v with
  | bool b => simp [json, Finite]
  | signed n => simp [json, Finite]
  | unsigned n => simp [json, Finite]
  | float x => cases h : x.isFinite <;> simp [json, Json.ofFloat, Finite, h]

/-- A number that is not finite is an infinity. -/
theorem Value.infinite_of_isNumber {v : Value} (h : v.IsNumber) (hfinite : ¬ v.Finite) :
    ∃ x, v = .float x ∧ x.isInfinite = true := by
  cases v with
  | float x =>
    refine ⟨x, rfl, ?_⟩
    by_contra hinfinite
    exact hfinite (Binary64.isFinite_of_isNaN_eq_false h (Bool.eq_false_of_not_eq_true hinfinite))
  | _ => exact absurd trivial hfinite

/-- An infinity is not finite. -/
theorem Value.not_finite_of_infinite {x : Binary64} (h : x.isInfinite = true) :
    ¬ (Value.float x).Finite := by
  rw [Value.Finite, Binary64.isFinite_of_isInfinite h]
  exact Bool.false_ne_true

/-- A cell is shown as null exactly if it holds no finite value. -/
theorem Cell.json_eq_null_iff {c : Cell} :
    c.json = .null ↔ ∀ v, c.value? = some v → ¬ v.Finite := by
  rw [json]
  cases h : c.value? with
  | none => simp
  | some v => simp [Value.json_eq_null_iff]

namespace Cells

variable {cells : Cells} {name : String}

/-- No name occurs twice, so an entry is found by its name. -/
theorem get?_eq_some_of_mem {cell : Cell} (h : (name, cell) ∈ cells.entries) :
    cells.get? name = some cell := by
  obtain ⟨before, after, hentries⟩ := List.append_of_mem h
  have hordered := cells.ordered
  rw [hentries, List.map_append, List.pairwise_append] at hordered
  have hfind : cells.entries.find? (fun e => e.1 = name) = some (name, cell) := by
    rw [List.find?_eq_some_iff_append]
    refine ⟨decide_eq_true rfl, before, after, hentries, fun e he => ?_⟩
    have hlt := hordered.2.2 e.1 (List.mem_map_of_mem he) name List.mem_cons_self
    simpa using String.ne_of_lt hlt
  rw [get?, hfind, Option.map_some]

/-- A name that is in use has a cell. -/
theorem exists_get?_of_mem_names (h : name ∈ cells.names) :
    ∃ cell, cells.get? name = some cell := by
  obtain ⟨⟨_, cell⟩, hmem, rfl⟩ := List.mem_map.mp h
  exact ⟨cell, get?_eq_some_of_mem hmem⟩

/-- The document of the cells shows null for a name. -/
def ShowsNull (cells : Cells) (name : String) : Prop :=
  ∃ members, cells.json = .object members ∧ (name, Json.null) ∈ members

/-- Null is shown for a cell without a value, and for one whose value is a float that is not
finite. -/
theorem showsNull_iff (h : name ∈ cells.names) :
    cells.ShowsNull name ↔ ∀ v, cells.value? name = some v → ¬ v.Finite := by
  obtain ⟨cell, hcell⟩ := exists_get?_of_mem_names h
  rw [value?, hcell, Option.bind_some, ← Cell.json_eq_null_iff]
  constructor
  · rintro ⟨members, hjson, hmem⟩
    cases hjson
    obtain ⟨⟨_, found⟩, hfound, heq⟩ := List.mem_map.mp hmem
    obtain ⟨rfl, hnull⟩ := Prod.mk.inj heq
    rwa [Option.some.inj (hcell.symm.trans (get?_eq_some_of_mem hfound))]
  · intro hnull
    obtain ⟨⟨_, found⟩, hfound, rfl⟩ := List.mem_map.mp h
    have hsame := Option.some.inj (hcell.symm.trans (get?_eq_some_of_mem hfound))
    exact ⟨_, rfl, List.mem_map.mpr ⟨_, hfound, Prod.ext rfl (hsame ▸ hnull)⟩⟩

/-- A cell without a value is shown as null. -/
theorem showsNull_of_none (h : name ∈ cells.names) (hnone : cells.value? name = none) :
    cells.ShowsNull name := by
  refine (showsNull_iff h).mpr fun v hv => ?_
  rw [hnone] at hv
  cases hv

/-- A cell with an infinity is shown as null. -/
theorem showsNull_of_infinite (h : name ∈ cells.names) {x : Binary64}
    (hx : cells.value? name = some (.float x)) (hinfinite : x.isInfinite = true) :
    cells.ShowsNull name := by
  refine (showsNull_iff h).mpr fun v hv => ?_
  obtain rfl := Option.some.inj (hx.symm.trans hv)
  exact Value.not_finite_of_infinite hinfinite

/-- A cell that has a value is shown as null for what cannot be read from text. -/
theorem ShowsNull.exists_not_finite (h : cells.ShowsNull name) (hname : name ∈ cells.names)
    (hsome : cells.value? name ≠ none) : ∃ v, cells.value? name = some v ∧ ¬ v.Finite := by
  obtain ⟨v, hv⟩ := Option.ne_none_iff_exists'.mp hsome
  exact ⟨v, hv, (showsNull_iff hname).mp h v hv⟩

end Cells

/-! ### Dead cells and live ones -/

/-- States that a link and its cells are brought to by any input. Meanwhile surroundings may clear
cells and assign what can be read from text. -/
def Site.Attains (s t : Site) : Prop :=
  ∃ actions log, s.Run actions log t ∧
    ∀ w ∈ actions.flatMap Action.writes, ∀ v, w.value = some v → v.Finite

/-- A run without assignments from outside only brings about states that can be attained. -/
theorem Site.Run.attains {s t : Site} {actions : List Action} {log : Log}
    (h : s.Run actions log t) (hnone : actions.flatMap Action.writes = []) : s.Attains t := by
  refine ⟨actions, log, h, ?_⟩
  rw [hnone]
  simp

/-- A run brings up no names of cells and loses none. -/
theorem Site.Run.names {s t : Site} {actions : List Action} {log : Log}
    (h : s.Run actions log t) : t.cells.names = s.cells.names := by
  rw [h.cells, Cells.names_replay]

namespace Layout

variable {o : Options} {d : Document} {l : Layout} {entropy : Entropy} {link : Link}
  {name : String} {t : Site}

/-- Before anything happens, no cell has a value. -/
theorem value?_declareAll (cells : List (String × CellKind)) (name : String) :
    (declareAll cells).value? name = none := by
  induction cells using List.reverseRecOn with
  | nil => rfl
  | append_singleton first last ih =>
    obtain ⟨declared, kind⟩ := last
    rw [declareAll_append, Cells.value?, Cells.get?, Cells.declare, Cells.find?_insertEntry]
    split
    · cases kind <;> rfl
    · exact ih

/-- A value of a cell that cannot be read from text was delivered by a float leaf. -/
theorem delivered_of_not_finite (hbuild : build o d = .ok l) (hlink : l.link entropy = .ok link)
    (h : Site.Attains ⟨link, l.cells⟩ t) {v : Value} (hv : t.cells.value? name = some v)
    (hfinite : ¬ v.Finite) :
    ∃ e ∈ l.protocol.envelopes, ∃ leaf ∈ e.leaves, leaf.kind = .float ∧
      leaf.binding.cell = name ∧ leaf.binding.writable = true ∧ v.IsNumber := by
  obtain ⟨actions, log, hrun, howner⟩ := h
  have hprotocol : link.protocol = l.protocol :=
    (Link.Fresh.of_new (of_mapError_ok hlink)).protocol
  rcases hrun.origin hv with hstart | ⟨e, he, leaf, hleaf, hwritable, hcell, hdelivers⟩ | hassigned
  · rw [(build_eq_ok hbuild).1, value?_declareAll] at hstart
    cases hstart
  · have hkind : v.kind = .float := by
      cases v with
      | float x => rfl
      | _ => exact absurd trivial hfinite
    exact ⟨e, hprotocol ▸ he, leaf, hleaf, hdelivers.kind ▸ hkind, hcell, hwritable,
      hdelivers.isNumber⟩
  · exact absurd (howner _ hassigned v rfl) hfinite

/-- On every run of a link that is set up for a layout, null is shown for a cell that has no value,
and else exactly if the value is an infinity. It means for a cell that there is no value if and only
if no leaf writes the cell as a float. -/
theorem null_means_nil_iff {o : Options} {d : Document} {l : Layout} {entropy : Entropy}
    {link : Link} (hbuild : build o d = .ok l) (hlink : l.link entropy = .ok link) {name : String}
    (hname : name ∈ l.cells.names) :
    (∀ t, Site.Attains ⟨link, l.cells⟩ t →
      (t.cells.ShowsNull name ↔ t.cells.value? name = none ∨
        ∃ x : Binary64, t.cells.value? name = some (.float x) ∧ x.isInfinite = true)) ∧
    ((∀ t, Site.Attains ⟨link, l.cells⟩ t →
        (t.cells.ShowsNull name ↔ t.cells.value? name = none)) ↔
      ∀ e ∈ l.protocol.envelopes, ∀ leaf ∈ e.leaves, leaf.kind = .float →
        leaf.binding.cell = name → leaf.binding.writable = false) := by
  have hnames {t : Site} (h : Site.Attains ⟨link, l.cells⟩ t) : name ∈ t.cells.names := by
    obtain ⟨_, _, hrun, -⟩ := h
    exact hrun.names ▸ hname
  refine ⟨fun t h => ⟨fun hshown => ?_, ?_⟩, ⟨fun hnil e he leaf hleaf hkind hcell => ?_,
    fun hreads t h => ⟨fun hshown => ?_, Cells.showsNull_of_none (hnames h)⟩⟩⟩
  · refine or_iff_not_imp_left.mpr fun hsome => ?_
    obtain ⟨v, hv, hfinite⟩ := hshown.exists_not_finite (hnames h) hsome
    obtain ⟨-, -, -, -, -, -, -, hnumber⟩ := delivered_of_not_finite hbuild hlink h hv hfinite
    obtain ⟨x, rfl, hinfinite⟩ := Value.infinite_of_isNumber hnumber hfinite
    exact ⟨x, hv, hinfinite⟩
  · rintro (hnone | ⟨x, hx, hinfinite⟩)
    · exact Cells.showsNull_of_none (hnames h) hnone
    · exact Cells.showsNull_of_infinite (hnames h) hx hinfinite
  · -- A leaf that wrote the cell could be sent an infinity.
    refine Bool.eq_false_of_not_eq_true fun hwritable => ?_
    obtain ⟨bytes, log, t, hrun, hvalue⟩ :=
      exists_run_infinity hbuild hlink he hleaf hkind hwritable
    rw [hcell] at hvalue
    have hattains := hrun.attains rfl
    have hnone := (hnil t hattains).mp
      (Cells.showsNull_of_infinite (hnames hattains) hvalue Binary64.isInfinite_infinity)
    rw [hvalue] at hnone
    cases hnone
  · by_contra hsome
    obtain ⟨v, hv, hfinite⟩ := hshown.exists_not_finite (hnames h) hsome
    obtain ⟨e, he, leaf, hleaf, hkind, hcell, hwritable, -⟩ :=
      delivered_of_not_finite hbuild hlink h hv hfinite
    rw [hreads e he leaf hleaf hkind hcell] at hwritable
    cases hwritable

end Layout

namespace Balloon

/-- A height and a level in one envelope. -/
def document : Layout.Document where
  cells := [("height", .float), ("level", .unsigned)]
  envelopes := [⟨"ab", 1, 0, [.value ⟨"height", 2, false, none, none⟩,
    .value ⟨"level", 1, false, none, none⟩]⟩]
  link := none
  seed := none

/-- The document of the cells tells a dead level from a live one, but not a dead height. -/
theorem null_means_nil_for_level :
    ∃ l link, Layout.build .default document = .ok l ∧ l.link 0 = .ok link ∧
      (∀ t, Site.Attains ⟨link, l.cells⟩ t →
        (t.cells.ShowsNull "level" ↔ t.cells.value? "level" = none)) ∧
      ¬ ∀ t, Site.Attains ⟨link, l.cells⟩ t →
        (t.cells.ShowsNull "height" ↔ t.cells.value? "height" = none) := by
  have hbuilt : ((Layout.build .default document).toOption.bind fun l =>
      (l.link 0).toOption.map fun _ => decide ("height" ∈ l.cells.names ∧ "level" ∈ l.cells.names ∧
        (∀ e ∈ l.protocol.envelopes, ∀ leaf ∈ e.leaves, leaf.kind = .float →
          leaf.binding.cell = "level" → leaf.binding.writable = false) ∧
        ¬ ∀ e ∈ l.protocol.envelopes, ∀ leaf ∈ e.leaves, leaf.kind = .float →
          leaf.binding.cell = "height" → leaf.binding.writable = false)) = some true := by
    decide +kernel
  obtain ⟨l, hbuild, hbuilt⟩ := Option.bind_eq_some_iff.mp hbuilt
  obtain ⟨link, hlink, hbuilt⟩ := Option.map_eq_some_iff.mp hbuilt
  obtain ⟨hheight, hlevel, hreads, hwrites⟩ := of_decide_eq_true hbuilt
  have hbuild := of_toOption_some hbuild
  have hlink := of_toOption_some hlink
  exact ⟨l, link, hbuild, hlink, (Layout.null_means_nil_iff hbuild hlink hlevel).2.mpr hreads,
    mt (Layout.null_means_nil_iff hbuild hlink hheight).2.mp hwrites⟩

/-- The bytes of a frame with an infinite height. -/
def frame : Bytes := [0xAB, 0x00, 0x7C, 0x07]

/-- Null is shown for a height that has a value. -/
theorem null_for_infinite_height :
    ∃ l link log t, Layout.build .default document = .ok l ∧ l.link 0 = .ok link ∧
      Site.Run ⟨link, l.cells⟩ [.feed frame, .cycle .zero] log t ∧
      t.cells.value? "height" = some (.float (.infinity false)) ∧ t.cells.ShowsNull "height" ∧
      t.cells.json.render = "\x7b\"height\":null,\"level\":7\x7d" := by
  have hrun : ((Layout.build .default document).toOption.bind fun l =>
      (l.link 0).toOption.bind fun link =>
        ((Site.mk link l.cells).run? [.feed frame, .cycle .zero]).map fun r =>
          decide (r.2.cells.value? "height" = some (.float (.infinity false)) ∧
            "height" ∈ r.2.cells.names ∧
            r.2.cells.json.render = "\x7b\"height\":null,\"level\":7\x7d")) = some true := by
    decide +kernel
  obtain ⟨l, hbuild, hrun⟩ := Option.bind_eq_some_iff.mp hrun
  obtain ⟨link, hlink, hrun⟩ := Option.bind_eq_some_iff.mp hrun
  obtain ⟨⟨log, t⟩, hrun, ht⟩ := Option.map_eq_some_iff.mp hrun
  obtain ⟨hvalue, hname, htext⟩ := of_decide_eq_true ht
  exact ⟨l, link, log, t, of_toOption_some hbuild, of_toOption_some hlink, .of_run? hrun, hvalue,
    Cells.showsNull_of_infinite hname hvalue Binary64.isInfinite_infinity, htext⟩

end Balloon

end DataLink
