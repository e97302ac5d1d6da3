import DataLink.Proofs.Decoding
import DataLink.Protocol
import Mathlib.Data.List.Nodup

/-!
# Which envelopes make a protocol

The checks that go over the envelopes one by one come down to this: there is an envelope, the magics
are distinct and of one length, and no payload is empty.
-/

namespace DataLink

/-- Strings that are distinct and not in use can be taken into use one after the other. -/
def Unused (used added : List Bytes) : Prop := added.Nodup ∧ ∀ bytes ∈ added, bytes ∉ used

/-- Where no magic is in use yet, the added ones only have to differ from each other. -/
theorem unused_nil_iff {added : List Bytes} : Unused [] added ↔ added.Nodup := by simp [Unused]

/-- The first string is in use once the others come. -/
theorem unused_cons {used added : List Bytes} {bytes : Bytes} :
    Unused used (bytes :: added) ↔ bytes ∉ used ∧ Unused (bytes :: used) added := by
  rw [Unused, Unused, List.nodup_cons, List.forall_mem_cons]
  constructor
  · rintro ⟨⟨hfirst, hnodup⟩, hused, hall⟩
    refine ⟨hused, hnodup, fun other hother => ?_⟩
    have hne : other ≠ bytes := fun heq => hfirst (heq ▸ hother)
    exact List.not_mem_cons_of_ne_of_not_mem hne (hall other hother)
  · rintro ⟨hused, hnodup, hall⟩
    refine ⟨⟨fun hmem => hall bytes hmem List.mem_cons_self, hnodup⟩, hused, ?_⟩
    intro other hother
    exact List.not_mem_of_not_mem_cons (hall other hother)

/-- The first strings are in use once the second ones come. -/
theorem unused_append {used first second : List Bytes} :
    Unused used (first ++ second) ↔ Unused used first ∧ Unused (first.reverse ++ used) second := by
  induction first generalizing used with
  | nil => simp [Unused]
  | cons bytes rest ih =>
    rw [List.cons_append, unused_cons, ih, unused_cons, and_assoc, List.reverse_cons,
      List.append_assoc, List.singleton_append]

namespace Protocol

/-- Each magic is compared with those before it, so they are distinct. -/
theorem checkMagics_eq_ok_iff {magicSize : Nat} {seen : List Bytes} {es : List Envelope} :
    checkMagics magicSize seen es = .ok () ↔
      (∀ e ∈ es, e.header.magic.length = magicSize) ∧
        Unused seen (es.map fun e => e.header.magic) := by
  induction es generalizing seen with
  | nil => simp [checkMagics, Unused]
  | cons e rest ih =>
    rw [checkMagics, List.forall_mem_cons, List.map_cons, unused_cons]
    by_cases hlength : e.header.magic.length ≠ magicSize
    · simp only [if_pos hlength]
      exact iff_of_false (fun h => nomatch h) fun h => hlength h.1.1
    · simp only [if_neg hlength]
      rw [not_not] at hlength
      by_cases hseen : seen.contains e.header.magic = true
      · rw [if_pos hseen]
        rw [List.contains_iff_mem] at hseen
        exact iff_of_false (fun h => nomatch h) fun h => h.2.1 hseen
      · rw [if_neg hseen, ih, and_iff_right hlength]
        rw [List.contains_iff_mem] at hseen
        rw [and_iff_right hseen]

/-- The sizes are right exactly if all magics have the same length and no payload is empty. -/
theorem checkSizes_eq_ok_iff {magicSize : Nat} {es : List Envelope} :
    checkSizes magicSize es = .ok () ↔
      ∀ e ∈ es, e.header.magic.length = magicSize ∧ e.payloadSize ≠ 0 := by
  induction es with
  | nil => simp [checkSizes]
  | cons e rest ih =>
    rw [checkSizes, List.forall_mem_cons]
    by_cases hlength : e.header.magic.length ≠ magicSize
    · rw [if_pos hlength]
      exact iff_of_false (fun h => nomatch h) fun h => hlength h.1.1
    · rw [if_neg hlength]
      rw [not_not] at hlength
      by_cases hempty : e.payloadSize = 0
      · rw [if_pos hempty]
        exact iff_of_false (fun h => nomatch h) fun h => h.1.2 hempty
      · rw [if_neg hempty, ih, and_iff_right ⟨hlength, hempty⟩]

/-- A protocol has the envelopes that it is made of, and they are those that pass all checks. -/
theorem new_eq_ok_iff {es : List Envelope} {p : Protocol} :
    Protocol.new es = .ok p ↔ p = ⟨es⟩ ∧ es ≠ [] ∧
      (∀ e ∈ es, e.header.magic.length = p.magicSize ∧ e.payloadSize ≠ 0) ∧
      (es.map fun e => e.header.magic).Nodup := by
  cases es with
  | nil => exact iff_of_false (fun h => nomatch h) fun h => h.2.1 rfl
  | cons e rest =>
    rw [Protocol.new]
    constructor
    · intro h
      split at h
      · cases h
      · next hmagics =>
        obtain ⟨_, hsizes, rfl⟩ := Packet.map_ok_iff.mp h
        obtain ⟨-, hunused⟩ := checkMagics_eq_ok_iff.mp hmagics
        exact ⟨rfl, List.cons_ne_nil _ _, checkSizes_eq_ok_iff.mp hsizes, unused_nil_iff.mp hunused⟩
    · rintro ⟨rfl, -, hall, hnodup⟩
      have hmagics : checkMagics (⟨e :: rest⟩ : Protocol).magicSize [] (e :: rest) = .ok () :=
        checkMagics_eq_ok_iff.mpr ⟨fun f hf => (hall f hf).1, unused_nil_iff.mpr hnodup⟩
      have hsizes : (⟨e :: rest⟩ : Protocol).verify = .ok () := checkSizes_eq_ok_iff.mpr hall
      simp only [hmagics, hsizes]
      rfl

end Protocol

end DataLink
