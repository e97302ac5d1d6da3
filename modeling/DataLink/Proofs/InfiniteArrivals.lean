import DataLink.Proofs.Conservation
import DataLink.Proofs.FloatFields
import DataLink.Proofs.Inversion
import DataLink.Proofs.Readback

/-!
# Infinities that arrive

An infinity is sent and delivered as it is, whatever the width and the offset. As interference with
input can be undone, every float cell that a link writes may come to hold one.
-/

namespace DataLink

/-! ### Input that arrives as wanted -/

/-- Where interference hits, and with which mask, is up to the length of a string alone. -/
theorem Interference.disturb_eq_modify (i : Interference) (length : Nat) :
    ∃ index mask, ∀ bytes : Bytes, bytes.length = length →
      (i.disturb bytes).bytes = bytes.modify index (· ^^^ mask) := by
  have hkept (bytes : Bytes) : bytes.modify 0 (· ^^^ 0) = bytes := by
    cases bytes <;> simp
  by_cases hcalm : length = 0 ∨ i.probability.le .zero = true
  · refine ⟨0, 0, fun bytes hlength => ?_⟩
    have hnone : (decide (bytes = []) || i.probability.le .zero) = true := by
      rw [Bool.or_eq_true, decide_eq_true_eq, ← List.length_eq_zero_iff, hlength]
      exact hcalm
    rw [disturb, if_pos hnone, hkept]
  · have hsome (bytes : Bytes) (hlength : bytes.length = length) :
        ¬ (decide (bytes = []) || i.probability.le .zero) = true := by
      rwa [Bool.or_eq_true, decide_eq_true_eq, ← List.length_eq_zero_iff, hlength]
    cases hdraw : i.draw with
    | mk hit noise =>
      cases hit with
      | false =>
        refine ⟨0, 0, fun bytes hlength => ?_⟩
        simp only [disturb, if_neg (hsome bytes hlength), hdraw, hkept]
      | true =>
        refine ⟨(noise.below length).1, (noise.below length).2.nonzeroByte.1,
          fun bytes hlength => ?_⟩
        simp only [disturb, if_neg (hsome bytes hlength), hdraw, hlength]

/-- Interference with what was spoiled in the same way mends it. -/
theorem Interference.disturb_disturb (i : Interference) (bytes : Bytes) :
    (i.disturb (i.disturb bytes).bytes).bytes = bytes := by
  obtain ⟨index, mask, h⟩ := i.disturb_eq_modify bytes.length
  have hmask : (fun b => b ^^^ mask) ∘ (fun b => b ^^^ mask) = (id : UInt8 → UInt8) := by
    funext b
    rw [Function.comp_apply, UInt8.xor_assoc, UInt8.xor_self, UInt8.xor_zero, id]
  rw [h _ (i.length_disturb bytes), h bytes rfl, List.modify_modify_eq, hmask, List.modify_id]

/-- Every string of bytes can be made to arrive. -/
theorem Link.exists_arriving (link : Link) (wanted : Bytes) :
    ∃ bytes, link.arriving bytes = wanted := by
  unfold arriving
  cases link.inputNoise with
  | none => exact ⟨wanted, rfl⟩
  | some noise => exact ⟨_, noise.disturb_disturb wanted⟩

/-! ### Infinities that arrive -/

/-- Infinity is infinite. -/
theorem Binary64.isInfinite_infinity : (infinity false).isInfinite = true := by decide

/-- An infinity is sent as it is, at any width and for any offset. -/
theorem FloatField.echo_infinity (f : FloatField) :
    f.echo (some (.float (.infinity false))) = some (.infinity false) :=
  (Sends.infinite Binary64.isInfinite_infinity).echo_eq

/-- Infinity arrives as infinity at every leaf of a float, whatever its offset. -/
theorem Leaf.arrival_infinity {leaf : Leaf} (h : leaf.kind = .float) :
    leaf.arrival (some (.float (.infinity false))) = some (.float (.infinity false)) := by
  cases leaf with
  | field f =>
    cases f with
    | float f =>
      have hadd : (Binary64.infinity false).add f.shift = .infinity false :=
        Binary64.add_of_isInfinite Binary64.isInfinite_infinity f.isFinite_shift
      rw [arrival, f.echo_infinity, Option.map_some]
      exact congrArg (some ∘ Value.float) hadd
    | _ => cases h
  | source s => cases s <;> cases h

/-- A cell holds what all of its leaves bring, if there is one. -/
theorem Leaf.settled_eq {leaves : List Leaf} {cells found : Cells} {name : String} {v : Value}
    {leaf : Leaf} (hmem : leaf ∈ leaves) (hcell : leaf.binding.cell = name)
    (h : ∀ other ∈ leaves, other.binding.cell = name →
      other.arrival (cells.value? name) = some v) :
    settled leaves cells found name = some v := by
  have hassigns : leaf.assigns cells = true := by
    rw [assigns, hcell, h leaf hmem hcell]
    rfl
  rw [settled]
  cases hlast : lastTo? leaves cells name with
  | none =>
    have hnone := List.find?_eq_none.mp hlast leaf (List.mem_reverse.mpr hmem)
    simp [hcell, hassigns] at hnone
  | some last =>
    have hfound := List.find?_some hlast
    rw [Bool.and_eq_true, decide_eq_true_eq] at hfound
    exact h last (List.mem_reverse.mp (List.mem_of_find?_eq_some hlast)) hfound.1

namespace Layout

variable {tx l : Layout} {leaf : Leaf} {place : Nat}

/-- A leaf of one end comes to be sent by the other. -/
theorem Ends.exists_carried (h : tx.Ends l) (hleaf : leaf ∈ l.protocol.leavesAt place) :
    ∃ turns, ∃ sent ∈ tx.protocol.carried turns, sent.Alike leaf := by
  have halike := h.alike place
  obtain ⟨i, hi, rfl⟩ := List.mem_iff_getElem.mp hleaf
  have hi' : i < (tx.protocol.leavesAt place).length := halike.length_eq ▸ hi
  have hsent := List.getElem_mem hi'
  cases he : tx.protocol.envelopes[place]? with
  | none => simp [Protocol.leavesAt, he] at hi'
  | some e =>
    obtain ⟨turns, e', he', hdue⟩ := Protocol.exists_isDue he
    have hleaves : e'.leaves = tx.protocol.leavesAt place := by
      rw [← Protocol.leavesAt_congr (tx.protocol.reaches_iterate_advance turns).readers,
        Protocol.leavesAt, he']
    have hmem : (e', place) ∈ (Protocol.advance^[turns] tx.protocol).due :=
      List.mem_filter.mpr ⟨List.mem_zipIdx_iff_getElem?.mpr he', hdue⟩
    have hemitted : (e', place) ∈ tx.protocol.emitted (turns + 1) :=
      List.mem_flatMap.mpr ⟨turns, List.mem_range.mpr turns.lt_succ_self, hmem⟩
    have hat : (tx.protocol.leavesAt place)[i] ∈ e'.leaves := by
      rw [hleaves]
      exact hsent
    exact ⟨turns + 1, _, List.mem_flatMap.mpr ⟨_, hemitted, hat⟩, halike.get hi' hi⟩

/-- If the sender's cell of a float leaf holds an infinity, it arrives at the receiver. -/
theorem Ends.settled_infinity (h : tx.Ends l) {turns : Nat}
    (hleaf : leaf ∈ tx.protocol.carried turns) (hkind : leaf.kind = .float) (found : Cells) :
    Leaf.settled (tx.protocol.carried turns)
      (l.cells.put leaf.binding.cell (some (.float (.infinity false)))) found leaf.binding.cell =
        some (.float (.infinity false)) := by
  have hcell := h.kind_carried leaf hleaf
  have haccepts : l.cells.Accepts ⟨leaf.binding.cell, some (.float (.infinity false))⟩ := by
    refine ⟨leaf.kind, hcell, ?_⟩
    rintro v ⟨⟩
    exact hkind.symm
  refine Leaf.settled_eq hleaf rfl fun other hother hsame => ?_
  have hother := h.kind_carried other hother
  rw [hsame, hcell, hkind] at hother
  rw [Cells.value?_put haccepts, if_pos rfl, Leaf.arrival_infinity (Option.some.inj hother).symm]

end Layout

/-- A link that was set up can be made to take any frames in its first cycle. -/
theorem Link.Fresh.exists_run {link : Link} {protocol : Protocol} {settings : Settings}
    (h : link.Fresh protocol settings) {frames : List Frame} (hdistinct : protocol.Distinct)
    (hread : ∀ f ∈ frames, f.ReadBy protocol) (hne : frames ≠ []) (cells : Cells) :
    ∃ bytes log t, Site.Run ⟨link, cells⟩ [.feed bytes, .cycle .zero] log t ∧
      t.cells = cells.replay (frames.flatMap fun f => f.relays protocol) := by
  obtain ⟨bytes, harrives⟩ := link.exists_arriving (Frame.stream frames)
  obtain ⟨r, hr⟩ := h.process_zero bytes cells
  obtain ⟨-, -, -, hcells⟩ := h.takes hdistinct hread hne harrives hr
  have hcycle : (Site.mk (link.feed bytes) cells).step? (.cycle .zero) =
      some (.cycled ((link.feed bytes).cycleLog .zero r), ⟨r.link, r.cells⟩) := by
    rw [Site.step?, hr, Option.map_some]
  exact ⟨bytes, _, _, .cons rfl (.cons hcycle .start), hcells⟩

namespace Layout

/-- A link that is set up for a layout can be fed such that after its first cycle the cell of a
float leaf that writes it holds an infinity. -/
theorem exists_run_infinity {o : Options} {d : Document} {l : Layout} {entropy : Entropy}
    {link : Link} (hbuild : build o d = .ok l) (hlink : l.link entropy = .ok link) {e : Envelope}
    (he : e ∈ l.protocol.envelopes) {leaf : Leaf} (hleaf : leaf ∈ e.leaves)
    (hkind : leaf.kind = .float) (hwritable : leaf.binding.writable = true) :
    ∃ bytes log t, Site.Run ⟨link, l.cells⟩ [.feed bytes, .cycle .zero] log t ∧
      t.cells.value? leaf.binding.cell = some (.float (.infinity false)) := by
  have hwrites : o.readOnly = false := by
    by_contra hreads
    have hunwritten := readsOnly_of_build hbuild (Bool.eq_true_of_not_eq_false hreads) e he
    rw [hunwritten leaf hleaf] at hwritable
    cases hwritable
  -- The other end of the layout sends the infinity, once the envelope is due.
  obtain ⟨tx, htx, -⟩ := (@build_agree (o.role true none 0) o rfl hwrites d).of_right hbuild
  have hends := ends_of_build htx hbuild rfl hwrites
  obtain ⟨place, hplace⟩ := List.mem_iff_getElem?.mp he
  have hat : leaf ∈ l.protocol.leavesAt place := by rwa [Protocol.leavesAt, hplace]
  obtain ⟨turns, sent, hsent, halike⟩ := hends.exists_carried hat
  have hne (cells : Cells) : tx.protocol.framesOf cells turns ≠ [] := by
    obtain ⟨emitted, hemitted, -⟩ := List.mem_flatMap.mp hsent
    rw [← List.length_pos_iff, Protocol.length_framesOf]
    exact List.length_pos_of_mem hemitted
  have hfresh := Link.Fresh.of_new (of_mapError_ok hlink)
  obtain ⟨bytes, log, t, hrun, hcells⟩ :=
    hfresh.exists_run hends.mirrors.distinct hends.readBy (hne _) l.cells
  refine ⟨bytes, log, t, hrun, ?_⟩
  rw [hcells, hends.relays_framesOf, Leaf.value?_replay_relays hends.kind_carried, halike.cell]
  exact hends.settled_infinity hsent (halike.kind ▸ hkind) l.cells

end Layout

end DataLink
