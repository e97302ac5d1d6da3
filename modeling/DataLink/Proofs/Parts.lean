import DataLink.Proofs.Arrivals
import DataLink.Proofs.Bindings
import DataLink.Proofs.WellFormed
import Mathlib.Data.List.Induction

/-!
# Which fields and bit sources are built

A field or a bit source is built if and only if its description makes sense for the cell that it
names. What is built takes the bytes or the bits that are described.
-/

namespace DataLink

namespace Cells

/-- The entry of a name is the one put in its place, or else the one that was there. -/
theorem find?_insertEntry (name other : String) (cell : Cell) (entries : List (String × Cell)) :
    (insertEntry name cell entries).find? (fun e => e.1 = other) =
      if other = name then some (name, cell) else entries.find? fun e => e.1 = other := by
  induction entries with
  | nil =>
    by_cases hname : other = name
    · simp [insertEntry, hname]
    · simp [insertEntry, hname, Ne.symm hname]
  | cons entry rest ih =>
    obtain ⟨first, found⟩ := entry
    by_cases hname : other = name
    · subst hname
      rw [if_pos rfl] at ih ⊢
      rw [insertEntry]
      split
      · simp
      · split
        · simp
        · next hne => rw [List.find?_cons_of_neg (by simpa using Ne.symm hne), ih]
    · rw [if_neg hname] at ih ⊢
      rw [insertEntry]
      split
      · rw [List.find?_cons_of_neg (by simpa using Ne.symm hname)]
      · split
        · next heq =>
          subst heq
          rw [List.find?_cons_of_neg (by simpa using Ne.symm hname),
            List.find?_cons_of_neg (by simpa using Ne.symm hname)]
        · rw [List.find?_cons, List.find?_cons, ih]

/-- A declaration gives its cell a kind and leaves the others alone. -/
theorem kind?_declare (cells : Cells) (name other : String) (kind : CellKind) :
    (cells.declare name kind).kind? other =
      if other = name then some kind else cells.kind? other := by
  rw [kind?, get?, declare, find?_insertEntry]
  split
  · rw [Option.map_some, Option.map_some, Cell.kind_empty]
  · rfl

end Cells

namespace Layout

/-- A last declaration is made after all others. -/
theorem declareAll_append (first : List (String × CellKind)) (name : String) (kind : CellKind) :
    declareAll (first ++ [(name, kind)]) = (declareAll first).declare name kind := by
  rw [declareAll, List.foldl_append]
  rfl

/-- The last declaration of a name counts. -/
theorem kind?_declareAll (cells : List (String × CellKind)) (name : String) :
    (declareAll cells).kind? name = cells.reverse.lookup name := by
  induction cells using List.reverseRecOn with
  | nil => rfl
  | append_singleton first last ih =>
    obtain ⟨declared, kind⟩ := last
    rw [declareAll_append, Cells.kind?_declare, ih, List.reverse_append, List.reverse_singleton,
      List.singleton_append, List.lookup_cons]
    by_cases hname : name = declared
    · simp [hname]
    · rw [if_neg hname, beq_eq_false_iff_ne.mpr hname]

variable {c : Context}

/-- A declared cell is found with its kind. -/
theorem kind_of_some {cell : String} {kind : CellKind} (h : c.cells.kind? cell = some kind) :
    c.kind cell = .ok kind := by
  obtain ⟨found, hfound, rfl⟩ := Option.map_eq_some_iff.mp h
  rw [Context.kind, Cells.lookup, hfound]
  rfl

/-- A cell that was not declared is reported as unknown. -/
theorem kind_of_none {cell : String} (h : c.cells.kind? cell = none) :
    c.kind cell = .error (.cell (.unknown cell)) := by
  rw [Context.kind, Cells.lookup, Option.map_eq_none_iff.mp h]
  rfl

/-! ### Fields -/

/-- An integer width is found by its bytes. -/
theorem intWidth_eq_some_iff {bytes : Nat} {w : IntWidth} :
    IntWidth.ofBytes? bytes = some w ↔ w.bytes = bytes := by
  constructor
  · intro h
    unfold IntWidth.ofBytes? at h
    split at h <;> cases h <;> rfl
  · rintro rfl
    cases w <;> rfl

/-- Integers have one, two, four or eight bytes. -/
theorem exists_intWidth_iff {bytes : Nat} :
    (∃ w : IntWidth, w.bytes = bytes) ↔ bytes ∈ [1, 2, 4, 8] := by
  constructor
  · rintro ⟨w, rfl⟩
    cases w <;> decide
  · intro h
    simp only [List.mem_cons, List.not_mem_nil, or_false] at h
    rcases h with rfl | rfl | rfl | rfl
    · exact ⟨.one, rfl⟩
    · exact ⟨.two, rfl⟩
    · exact ⟨.four, rfl⟩
    · exact ⟨.eight, rfl⟩

/-- A float width is found by its bytes. -/
theorem floatWidth_eq_some_iff {bytes : Nat} {w : FloatWidth} :
    FloatWidth.ofBytes? bytes = some w ↔ w.bytes = bytes := by
  constructor
  · intro h
    unfold FloatWidth.ofBytes? at h
    split at h <;> cases h <;> rfl
  · rintro rfl
    cases w <;> rfl

/-- Floats have two, four or eight bytes. -/
theorem exists_floatWidth_iff {bytes : Nat} :
    (∃ w : FloatWidth, w.bytes = bytes) ↔ bytes ∈ [2, 4, 8] := by
  constructor
  · rintro ⟨w, rfl⟩
    cases w <;> decide
  · intro h
    simp only [List.mem_cons, List.not_mem_nil, or_false] at h
    rcases h with rfl | rfl | rfl
    · exact ⟨.two, rfl⟩
    · exact ⟨.four, rfl⟩
    · exact ⟨.eight, rfl⟩

/-- The width of an integer field is found exactly if the document asks for one of theirs. -/
theorem integerWidth_succeeds (d : FieldDoc) :
    SucceedsIff (d.bytes ∈ [1, 2, 4, 8]) (fun w : IntWidth => w.bytes = d.bytes)
      (integerWidth d) := by
  simp only [← exists_intWidth_iff, ← intWidth_eq_some_iff]
  unfold integerWidth
  cases IntWidth.ofBytes? d.bytes with
  | none => exact .congr (.error _) (by simp)
  | some w => exact .congr (.ok rfl) (by simp)

/-- The width of a float field is found exactly if the document asks for one that floats have. -/
theorem floatWidth_succeeds (d : FieldDoc) :
    SucceedsIff (d.bytes ∈ [2, 4, 8]) (fun w : FloatWidth => w.bytes = d.bytes)
      (floatWidth d) := by
  simp only [← exists_floatWidth_iff, ← floatWidth_eq_some_iff]
  unfold floatWidth
  cases FloatWidth.ofBytes? d.bytes with
  | none => exact .congr (.error _) (by simp)
  | some w => exact .congr (.ok rfl) (by simp)

/-- A part with a substitute for nil is built if the substitute can be read and fits. -/
theorem substitute_succeeds {α β : Type} {cell : String} {value : Option Json}
    {read : Json → Option α} {default : α} {C : Prop} {fits : α → Prop} {P : β → Prop}
    {build : α → Except LayoutFault β} (hdefault : C → fits default)
    (hbuild : ∀ a, SucceedsIff (C ∧ fits a) P (build a)) :
    SucceedsIff (C ∧ ∀ json ∈ value, ∃ a, read json = some a ∧ fits a) P
      (substitute cell value read default >>= build) := by
  cases value with
  | none =>
    refine (hbuild default).congr (and_congr_right fun hC => ?_)
    exact iff_of_true (hdefault hC) fun _ hmem => nomatch hmem
  | some json =>
    rw [substitute]
    cases hread : read json with
    | none => exact (SucceedsIff.error _).congr (by simp [hread])
    | some a => exact (hbuild a).congr (by simp [hread])

/-- An integer field is built if its width is one of integers and its substitute for nil fits. -/
theorem integer_succeeds {α : Type} (d : FieldDoc) {read : Json → Option α} {default : α}
    (fits : Nat → α → Prop) {make : IntWidth → α → Except ConfigFault Field}
    (hdefault : ∀ w : IntWidth, fits w.bytes default)
    (hmake : ∀ w a, SucceedsIff (fits w.bytes a) (fun f => f.size = w.bytes) (make w a)) :
    SucceedsIff
      (d.bytes ∈ [1, 2, 4, 8] ∧ ∀ json ∈ d.valueIfNil, ∃ a, read json = some a ∧ fits d.bytes a)
      (fun f => f.size = d.bytes)
      (do
        let a ← substitute d.cell d.valueIfNil read default
        let width ← integerWidth d
        (make width a).mapError LayoutFault.config) := by
  refine substitute_succeeds ?_ fun a => (integerWidth_succeeds d).bind fun w hw => ?_
  · intro hbytes
    obtain ⟨w, hw⟩ := exists_intWidth_iff.mpr hbytes
    rw [← hw]
    exact hdefault w
  · rw [← hw]
    exact (hmake w a).mapError _

/-- The test whether a signed number fits a width is that of its range. -/
theorem fitsSigned_iff {w : IntWidth} {n : Int64} :
    w.fitsSigned n = true ↔ FitsSigned w.bytes n.toInt := by
  simp [IntWidth.fitsSigned, FitsSigned, IntWidth.bits]

/-- A signed field is made exactly if its value for nil fits. -/
theorem ofSigned_succeeds (b : Binding) (w : IntWidth) (n : Int64) :
    SucceedsIff (FitsSigned w.bytes n.toInt) (fun f => f.size = w.bytes)
      (Field.ofSigned b w n) := by
  rw [← fitsSigned_iff, ← and_true (_ = true)]
  exact .guard fun _ => .ok rfl

/-- An unsigned field is made exactly if its value for nil fits. -/
theorem ofUnsigned_succeeds (b : Binding) (w : IntWidth) (n : UInt64) :
    SucceedsIff (n.toNat < 2 ^ (8 * w.bytes)) (fun f => f.size = w.bytes)
      (Field.ofUnsigned b w n) := by
  have hfits : n.toNat < 2 ^ (8 * w.bytes) ↔ w.fitsUnsigned n = true := decide_eq_true_iff.symm
  rw [hfits, ← and_true (_ = true)]
  exact .guard fun _ => .ok rfl

/-- A float field is made exactly if its offset is finite. -/
theorem ofFloat_succeeds (b : Binding) (w : FloatWidth) (offset : Option Binary64) :
    SucceedsIff (∀ x ∈ offset, x.isFinite = true) (fun f => f.size = w.bytes)
      (Field.ofFloat b w offset) := by
  have hall : (∀ x ∈ offset, x.isFinite = true) ↔ offset.all Binary64.isFinite = true :=
    (Option.all_eq_true _ _).symm
  rw [hall, ← and_true (_ = true)]
  exact .guard fun _ => .ok rfl

/-- A number that fits is read from a JSON value if the value is that number. -/
theorem exists_integer?_iff {json : Json} {bytes : Nat} (hbytes : bytes ∈ [1, 2, 4, 8]) :
    (∃ a, json.integer? = some a ∧ FitsSigned bytes a.toInt) ↔
      ∃ n, json.IsInteger n ∧ FitsSigned bytes n := by
  have hmax : Int64.maxValue.toInt = 2 ^ 63 - 1 := rfl
  constructor
  · rintro ⟨a, hread, hfits⟩
    refine ⟨a.toInt, ?_, hfits⟩
    unfold Json.integer? at hread
    split at hread
    · next m =>
      split at hread
      · next hle =>
        have ha : a.toInt = m.toNat := by
          rw [← Option.some.inj hread, Int64.toInt_ofInt_of_le (by omega) (by omega)]
        rw [ha]
        exact .natural m
      · cases hread
    · next m => exact Option.some.inj hread ▸ .negative m
    · cases hread
  · rintro ⟨n, hn, hfits⟩
    cases hn with
    | natural m =>
      -- No width has more than 64 bits, so the number is one of the cell's.
      have hword : (m.toNat : Int) ≤ Int64.maxValue.toInt := by
        have hlt := hfits.2
        simp only [List.mem_cons, List.not_mem_nil, or_false] at hbytes
        rcases hbytes with rfl | rfl | rfl | rfl <;> omega
      refine ⟨Int64.ofInt m.toNat, if_pos hword, ?_⟩
      rwa [Int64.toInt_ofInt_of_le (by omega) (by omega)]
    | negative m => exact ⟨m, rfl, hfits⟩

/-- Only a natural number is read as one. -/
theorem natural?_eq_some_iff {json : Json} {n : UInt64} :
    json.natural? = some n ↔ json = .number (.natural n) := by
  unfold Json.natural?
  split
  · simp
  · next hother => exact iff_of_false (by simp) (hother n)

/-- Only a truth value is read as one. -/
theorem bool?_eq_some_iff {json : Json} {b : Bool} : json.bool? = some b ↔ json = .bool b := by
  unfold Json.bool?
  split
  · simp
  · next hother => exact iff_of_false (by simp) (hother b)

/-- The kind of a declared cell is always found. -/
theorem kind_succeeds {c : Context} {cell : String} {kind : CellKind}
    (h : c.cells.kind? cell = some kind) : SucceedsIff True (· = kind) (c.kind cell) := by
  rw [kind_of_some h]
  exact .ok rfl

/-- A field is built if its description makes sense. -/
theorem field_succeeds (c : Context) (d : FieldDoc) :
    SucceedsIff (d.WellFormed c.cells.kind?) (fun f => f.size = d.bytes) (field c d) := by
  cases hkind : c.cells.kind? d.cell with
  | none =>
    rw [field, kind_of_none hkind]
    refine (SucceedsIff.error _).of_not id fun hd => ?_
    rcases hd.kind with kind | kind | kind <;> cases hkind.symm.trans kind
  | some kind =>
    unfold field
    refine ((kind_succeeds hkind).bind ?_).congr (true_and _).to_iff
    rintro kind rfl
    by_cases hoffset : (d.offset.isSome && kind != .float) = true
    · simp only [if_pos hoffset]
      rw [Bool.and_eq_true, Option.isSome_iff_ne_none, bne_iff_ne] at hoffset
      refine (SucceedsIff.error (LayoutFault.offset d.cell)).of_not id fun hd => ?_
      rcases hd.offset with hnone | hfloat
      · exact hoffset.1 hnone
      · exact hoffset.2 (Option.some.inj (hkind.symm.trans hfloat))
    · simp only [if_neg hoffset]
      rw [Bool.and_eq_true, Option.isSome_iff_ne_none, bne_iff_ne, not_and_or, not_not, not_not]
        at hoffset
      cases kind with
      | bool =>
        refine (SucceedsIff.error _).of_not id fun hd => ?_
        rcases hd.kind with kind | kind | kind <;> cases hkind.symm.trans kind
      | signed =>
        have hnone : d.offset = none := hoffset.resolve_right (by simp)
        refine (integer_succeeds d (fun bytes n => FitsSigned bytes n.toInt) ?_
          fun w n => ofSigned_succeeds _ w n).congr ?_
        · intro w
          cases w <;> simp [FitsSigned, IntWidth.bytes]
        · rw [FieldDoc.wellFormed_signed_iff hkind, and_iff_right hnone]
          refine and_congr_right fun hbytes => forall₂_congr fun json _ => ?_
          exact exists_integer?_iff hbytes
      | unsigned =>
        have hnone : d.offset = none := hoffset.resolve_right (by simp)
        refine (integer_succeeds d (fun bytes n => n.toNat < 2 ^ (8 * bytes)) ?_
          fun w n => ofUnsigned_succeeds _ w n).congr ?_
        · intro w
          exact Nat.two_pow_pos _
        · simp only [FieldDoc.wellFormed_unsigned_iff hkind, and_iff_right hnone,
            natural?_eq_some_iff]
      | float =>
        have hbuild (_ : Unit) : SucceedsIff
            ((d.bytes ∈ [2, 4, 8] ∧ ∀ x ∈ d.offset, x.isFinite = true) ∧ True)
            (fun f => f.size = d.bytes) (do
              let width ← floatWidth d
              (Field.ofFloat (c.binding d.cell d.retained) width d.offset).mapError
                LayoutFault.config) := by
          rw [and_true]
          refine (floatWidth_succeeds d).bind fun w hw => ?_
          rw [← hw]
          exact (ofFloat_succeeds _ w _).mapError _
        refine (substitute_succeeds (fun _ => trivial) hbuild).congr ?_
        rw [FieldDoc.wellFormed_float_iff hkind, and_comm]
        refine and_congr_left' ?_
        rw [Option.eq_none_iff_forall_not_mem]
        simp

/-! ### Bit sources -/

/-- A number of bits is made exactly if there are from one to sixty-four bits, and its value for nil
fits. -/
theorem ofUnsigned_source_succeeds (b : Binding) (bits : Nat) (n : UInt64) :
    SucceedsIff ((1 ≤ bits ∧ bits ≤ 64) ∧ n.toNat < 2 ^ bits) (fun s => s.bits = bits)
      (BitSource.ofUnsigned b bits n) := by
  rw [← and_true (n.toNat < 2 ^ bits)]
  exact .guard fun _ => .guard fun _ => .ok rfl

/-- A bit source is built if its description makes sense. -/
theorem source_succeeds (c : Context) (d : SourceDoc) :
    SucceedsIff (d.WellFormed c.cells.kind?) (fun s => s.bits = d.width c.cells.kind?)
      (source c d) := by
  cases hkind : c.cells.kind? d.cell with
  | none =>
    rw [source, kind_of_none hkind]
    refine (SucceedsIff.error _).of_not id fun hd => ?_
    rcases hd.kind with kind | kind <;> cases hkind.symm.trans kind
  | some kind =>
    unfold source
    refine ((kind_succeeds hkind).bind ?_).congr (true_and _).to_iff
    rintro kind rfl
    cases kind with
    | bool =>
      have hwidth : d.width c.cells.kind? = d.bits.getD 1 := by rw [SourceDoc.width, if_pos hkind]
      have hone : (∀ n ∈ d.bits, n = 1) ↔ d.bits.getD 1 = 1 := by
        cases d.bits <;> simp
      rw [SourceDoc.wellFormed_bool_iff hkind, hone, hwidth]
      by_cases hbits : d.bits.getD 1 ≠ 1
      · simp only [if_pos hbits]
        exact (SucceedsIff.error (LayoutFault.wideFlag d.cell)).of_not id fun h => hbits h.1
      · simp only [if_neg hbits]
        rw [not_not] at hbits
        have hbuild (b : Bool) : SucceedsIff (d.bits.getD 1 = 1 ∧ True)
            (fun s => s.bits = d.bits.getD 1)
            (.ok (.flag ⟨c.binding d.cell d.retained, b⟩) : Except LayoutFault BitSource) :=
          .congr (.ok hbits.symm) (iff_of_true trivial ⟨hbits, trivial⟩)
        refine (substitute_succeeds (fun _ => trivial) hbuild).congr ?_
        simp only [bool?_eq_some_iff, and_true]
    | unsigned =>
      have hwidth : d.width c.cells.kind? = d.bits.getD 64 := by
        rw [SourceDoc.width, if_neg (by rw [hkind]; decide)]
      rw [hwidth]
      refine (substitute_succeeds ?_
        fun n => (ofUnsigned_source_succeeds _ _ n).mapError _).congr ?_
      · intro _
        exact Nat.two_pow_pos _
      · simp only [SourceDoc.wellFormed_unsigned_iff hkind, natural?_eq_some_iff]
    | signed =>
      refine (SucceedsIff.error _).of_not id fun hd => ?_
      rcases hd.kind with kind | kind <;> cases hkind.symm.trans kind
    | float =>
      refine (SucceedsIff.error _).of_not id fun hd => ?_
      rcases hd.kind with kind | kind <;> cases hkind.symm.trans kind

/-- The sources of a bit field are built if all descriptions make sense. -/
theorem sources_succeeds (c : Context) (ds : List SourceDoc) :
    SucceedsIff (∀ d ∈ ds, d.WellFormed c.cells.kind?)
      (fun sources => BitSource.totalBytes sources = (PacketDoc.bitfield ds).size c.cells.kind?)
      (ds.mapM (source c)) := by
  refine (SucceedsIff.mapM (source_succeeds c) ds).imp fun sources hsources => ?_
  have hbits : BitSource.totalBits sources = (ds.map fun d => d.width c.cells.kind?).sum := by
    induction hsources with
    | nil => rfl
    | cons hs _ ih => rw [BitSource.totalBits, hs, ih, List.map_cons, List.sum_cons]
  rw [BitSource.totalBytes, hbits, PacketDoc.size]

end Layout

end DataLink
