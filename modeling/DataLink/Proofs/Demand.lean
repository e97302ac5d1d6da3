import DataLink.Proofs.Atomicity
import DataLink.Proofs.Demultiplexer

/-!
# What eating asks for

A protocol asks for a magic first, and then for the whole envelope whose magic leads the input. It
asks for neither more nor less than that. Once it has what it asked for it decides, and it has
looked at nothing else. So a stream can be eaten as it arrives, by waiting for what is asked for.
-/

namespace DataLink

namespace Protocol

variable {p : Protocol} {input : Bytes} {needed : Nat}

/-- So many bytes are needed of an input: those of a magic, or else those of the envelope whose
magic leads it. If no envelope has the magic that leads it, nothing is needed. -/
inductive Needs (p : Protocol) (input : Bytes) : Nat → Prop where
  | magic (hshort : input.length < p.magicSize) : p.Needs input p.magicSize
  | envelope {e : Envelope} (hmem : e ∈ p.envelopes) (hmagic : e.header.magic <+: input) :
    p.Needs input e.size

/-- What it means that an input is eaten as it arrives. -/
structure EatsOnline (p : Protocol) (input : Bytes) : Prop where
  /-- Bytes are asked for exactly if there are fewer than needed. -/
  demand : ∀ needed available, (p.eat input).2 = .error (.insufficient needed available) ↔
    p.Needs input needed ∧ available = input.length ∧ input.length < needed
  /-- Where none are asked for, all is decided: what follows the input changes neither the outcome
  nor what is staged. -/
  decided : (∀ needed available, (p.eat input).2 ≠ .error (.insufficient needed available)) →
    ∀ more, p.eat (input ++ more) = p.eat input
  /-- An envelope is accepted in full. -/
  consumed : ∀ eaten, (p.eat input).2 = .ok eaten →
    ∃ e, p.envelopes[eaten.envelope]? = some e ∧ e.header.magic <+: input ∧
      eaten.consumed = e.size
  /-- Fewer bytes than needed are never enough: the same is asked for again, and nothing is
  staged. -/
  waits : ∀ needed more, p.Needs input needed → (input ++ more).length < needed →
    p.eat (input ++ more) = (p, .error (.insufficient needed (input ++ more).length))
  /-- The bytes needed are enough, but for the magic: the rest of its envelope may be asked for
  then. -/
  enough : ∀ needed more, p.Needs input needed → needed ≤ (input ++ more).length →
    ∀ needed' available, (p.eat (input ++ more)).2 = .error (.insufficient needed' available) →
      input.length < p.magicSize ∧
        ∃ e ∈ p.envelopes, e.header.magic <+: input ++ more ∧ needed' = e.size
  /-- No byte beyond the envelope is looked at. -/
  beyond : ∀ e ∈ p.envelopes, e.header.magic <+: input → p.eat (input.take e.size) = p.eat input
  /-- Without an envelope, no byte beyond the magic is looked at. -/
  unknown : (∀ e ∈ p.envelopes, ¬ e.header.magic <+: input) →
    p.eat (input.take p.magicSize) = p.eat input

/-! ### The envelope that leads an input -/

/-- The envelope whose magic leads the input is the one that is looked up. -/
theorem Distinct.find?_of_prefix (h : p.Distinct) {e : Envelope} (hmem : e ∈ p.envelopes)
    (hmagic : e.header.magic <+: input) :
    p.magicSize ≤ input.length ∧
      ∃ i, p.find? (input.take p.magicSize) = some i ∧ p.envelopes[i]? = some e := by
  have hsize := h.length e hmem
  have htake : input.take p.magicSize = e.header.magic := by
    rw [← hsize]
    exact (List.prefix_iff_eq_take.mp hmagic).symm
  obtain ⟨i, hi⟩ := List.getElem?_of_mem hmem
  exact ⟨hsize ▸ hmagic.length_le, i, htake ▸ h.find? hi, hi⟩

/-- What is needed of an input is one number. -/
theorem Distinct.needs_unique (h : p.Distinct) {other : Nat} (hneeds : p.Needs input needed)
    (hother : p.Needs input other) : other = needed := by
  cases hneeds with
  | magic hshort =>
    cases hother with
    | magic => rfl
    | envelope hmem hmagic =>
      have hlong := (h.find?_of_prefix hmem hmagic).1
      omega
  | envelope hmem hmagic =>
    obtain ⟨hlong, i, hfind, hi⟩ := h.find?_of_prefix hmem hmagic
    cases hother with
    | magic hshort => omega
    | envelope hmem' hmagic' =>
      obtain ⟨-, j, hfind', hj⟩ := h.find?_of_prefix hmem' hmagic'
      obtain rfl := Option.some.inj (hfind.symm.trans hfind')
      obtain rfl := Option.some.inj (hi.symm.trans hj)
      rfl

/-! ### Bytes asked for -/

/-- Only what is needed is asked for. -/
theorem needs_of_insufficient {available : Nat}
    (h : (p.eat input).2 = .error (.insufficient needed available)) :
    p.Needs input needed ∧ available = input.length ∧ input.length < needed := by
  rcases p.eat_cases input with ⟨hshort, hout⟩ | ⟨-, -, hout⟩ | ⟨i, e, -, hfind, he, hout⟩
  · rw [hout] at h
    cases h
    exact ⟨.magic hshort, rfl, hshort⟩
  · rw [hout] at h
    cases h
  · have hmagic : e.header.magic <+: input := by
      rw [magic_of_find? hfind he]
      exact List.take_prefix _ _
    rw [hout] at h
    obtain ⟨hshort, rfl, rfl⟩ := Packet.decode_insufficient_iff.mp (Packet.map_error_iff.mp h)
    exact ⟨.envelope (List.mem_of_getElem? he) hmagic, rfl, hshort⟩

/-- What is needed and not there is asked for, and nothing is staged. -/
theorem Distinct.eat_of_needs (h : p.Distinct) (hneeds : p.Needs input needed)
    (hshort : input.length < needed) :
    p.eat input = (p, .error (.insufficient needed input.length)) := by
  have hout : (p.eat input).2 = .error (.insufficient needed input.length) := by
    cases hneeds with
    | magic => rw [eat, if_pos ((Bytes.shorterThan_iff _ _).mpr hshort)]
    | @envelope e hmem hmagic =>
      obtain ⟨hlong, i, hfind, hi⟩ := h.find?_of_prefix hmem hmagic
      rw [eat_of_find? hlong hfind hi, Packet.decode_of_lt _ hshort]
      rfl
  exact Prod.ext (eat_fst_of_insufficient hout) hout

/-- Nothing is asked for once there are as many bytes as needed. -/
theorem Distinct.not_insufficient_of_needs (h : p.Distinct) (hneeds : p.Needs input needed)
    (hlong : needed ≤ input.length) (other available : Nat) :
    (p.eat input).2 ≠ .error (.insufficient other available) := by
  intro hout
  obtain ⟨hother, -, hshort⟩ := needs_of_insufficient hout
  rw [h.needs_unique hneeds hother] at hshort
  omega

/-- More bytes change what is needed only if they complete a magic. -/
theorem Needs.append (h : p.Needs input needed) (more : Bytes)
    (hmagic : input.length < p.magicSize → (input ++ more).length < p.magicSize) :
    p.Needs (input ++ more) needed := by
  cases h with
  | magic hshort => exact .magic (hmagic hshort)
  | envelope hmem hlead => exact .envelope hmem (hlead.trans (List.prefix_append _ _))

/-- As many bytes as needed are looked at, and no others. -/
theorem Distinct.eat_take (h : p.Distinct) {e : Envelope} (hmem : e ∈ p.envelopes)
    (hmagic : e.header.magic <+: input) : p.eat (input.take e.size) = p.eat input := by
  rcases Nat.lt_or_ge input.length e.size with hshort | hlong
  · rw [List.take_of_length_le (Nat.le_of_lt hshort)]
  · have hlength : (input.take e.size).length = e.size := List.length_take_of_le hlong
    have hle : e.header.magic.length ≤ e.size := Nat.le_add_right _ _
    have hlead : e.header.magic <+: input.take e.size :=
      List.prefix_take_iff.mpr ⟨hmagic, hle⟩
    have hdecided := eat_append (input.drop e.size)
      (h.not_insufficient_of_needs (.envelope hmem hlead) (Nat.le_of_eq hlength.symm))
    rw [← hdecided, List.take_append_drop]

/-- An input that begins with no magic is refused by its first bytes alone. -/
theorem eat_take_of_unknown (h : ∀ e ∈ p.envelopes, ¬ e.header.magic <+: input) :
    p.eat (input.take p.magicSize) = p.eat input := by
  rcases Nat.lt_or_ge input.length p.magicSize with hshort | hlong
  · rw [List.take_of_length_le (Nat.le_of_lt hshort)]
  · have hlength : (input.take p.magicSize).length = p.magicSize := List.length_take_of_le hlong
    have hdecided : ∀ needed available,
        (p.eat (input.take p.magicSize)).2 ≠ .error (.insufficient needed available) := by
      intro needed available hout
      obtain ⟨hneeds, -, hshort⟩ := needs_of_insufficient hout
      cases hneeds with
      | magic => omega
      | envelope hmem hmagic => exact h _ hmem (hmagic.trans (List.take_prefix _ _))
    rw [← eat_append (input.drop p.magicSize) hdecided, List.take_append_drop]

/-- Protocols whose magics are distinct eat every input online. -/
theorem Distinct.eatsOnline (h : p.Distinct) (input : Bytes) : p.EatsOnline input where
  demand needed available := by
    constructor
    · exact needs_of_insufficient
    · rintro ⟨hneeds, rfl, hshort⟩
      rw [h.eat_of_needs hneeds hshort]
  decided hdecided more := eat_append more hdecided
  consumed eaten hok := by
    obtain ⟨e, he, -, -, hdecode, -⟩ := eat_ok hok
    exact ⟨e, he, Envelope.magic_prefix_of_decode hdecode, (Packet.decode_ok hdecode).1⟩
  waits needed more hneeds hshort := by
    refine h.eat_of_needs (hneeds.append more fun hmagic => ?_) hshort
    rwa [h.needs_unique hneeds (.magic hmagic)]
  enough needed more hneeds hlong needed' available hout := by
    obtain ⟨hneeds', -, hshort⟩ := needs_of_insufficient hout
    have hmagic : input.length < p.magicSize := by
      by_contra hlead
      exact h.not_insufficient_of_needs (hneeds.append more fun hshort => absurd hshort hlead)
        hlong _ _ hout
    obtain rfl := h.needs_unique hneeds (.magic hmagic)
    cases hneeds' with
    | magic => omega
    | envelope hmem hmagic' => exact ⟨hmagic, _, hmem, hmagic', rfl⟩
  beyond _ hmem hmagic := h.eat_take hmem hmagic
  unknown := eat_take_of_unknown

end Protocol

/-- Eating is an online parser with an exact demand, for every protocol, in every state that calls
lead to, and for every input. -/
theorem eats_online {es : List Envelope} {p q : Protocol} {cells : Cells} {calls : List Call}
    (hnew : Protocol.new es = .ok p) (hq : (Station.after ⟨p, cells⟩ calls).protocol = q)
    (input : Bytes) : q.EatsOnline input := by
  have hreaders : q.readers = p.readers := hq ▸ Station.readers_after ⟨p, cells⟩ calls
  exact ((Protocol.distinct_of_new hnew).congr hreaders.symm).eatsOnline input

namespace Ferry

/-- The lamp is on, and what should protect the horn is wrong. -/
def forged : Bytes := [0xAB, 128, 7, 128, 0, 0, 0, 0]

/-- A part of a message needs the whole of it. A forged one is refused as soon as it is complete,
and leaves the same behind whatever follows. -/
theorem eats_online_mixed :
    ∃ p q, Protocol.new [mixed] = .ok p ∧
      (Station.after ⟨p, cells⟩ [.eat forged, .failsafe]).protocol = q ∧
      q.Needs [0xAB, 128, 7] 8 ∧
      (q.eat forged).2 = .error .signatureMismatch ∧
      ∀ more, q.eat (forged ++ more) = q.eat forged := by
  have hnew : Protocol.new [mixed] = .ok ⟨[mixed]⟩ := rfl
  obtain ⟨q, hq⟩ :
      ∃ q, (Station.after ⟨⟨[mixed]⟩, cells⟩ [.eat forged, .failsafe]).protocol = q := ⟨_, rfl⟩
  have hpart : (q.eat [0xAB, 128, 7]).2 = .error (.insufficient 8 3) := by
    rw [← hq]
    decide +kernel
  have hforged : (q.eat forged).2 = .error .signatureMismatch := by
    rw [← hq]
    decide +kernel
  obtain ⟨hneeds, -⟩ := ((eats_online hnew hq [0xAB, 128, 7]).demand 8 3).mp hpart
  have hdecided := (eats_online hnew hq forged).decided (by simp [hforged])
  exact ⟨_, q, hnew, hq, hneeds, hforged, hdecided⟩

end Ferry

end DataLink
