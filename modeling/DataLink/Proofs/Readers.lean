import DataLink.Proofs.Assignments
import DataLink.Proofs.Decoding

/-!
# What eating depends on

A protocol eats an envelope from the front of an input. The outcome depends only on the bytes
and on how the envelopes are read. Neither the values staged before nor anything that changes
with emission has a part in it.
-/

namespace DataLink

/-- What an envelope is to its receiver. Staged values, nonces and cadence are left out. -/
structure Reader where
  magic : Bytes
  leaves : List Leaf
  decode : Bytes → Decoded

namespace Envelope

/-- How the envelope is read. -/
def reader (e : Envelope) : Reader := ⟨e.header.magic, e.leaves, e.packet.decode⟩

/-- Staging values does not change how an envelope is read. -/
@[simp] theorem reader_stage (e : Envelope) (values : Staged) :
    (e.stage values).reader = e.reader := rfl

/-- On a turn the packet of an envelope takes its own. -/
theorem packet_advance (e : Envelope) : e.advance.packet = e.packet.advance := by
  simp only [packet, advance, Packet.advance]

/-- Turns do not change how an envelope is read. -/
@[simp] theorem reader_advance (e : Envelope) : e.advance.reader = e.reader := by
  have hmagic : e.advance.header.magic = e.header.magic := rfl
  have hleaves : e.advance.leaves = e.leaves := Packet.leaves_advance e.packet
  have hdecode : e.advance.packet.decode = e.packet.decode := by
    funext input
    rw [packet_advance, Packet.decode_advance]
  rw [reader, hmagic, hleaves, hdecode, reader]

/-- An envelope that is decoded leads the input with its magic. -/
theorem magic_prefix_of_decode {e : Envelope} {input : Bytes} {n : Nat}
    (h : (e.packet.decode input).outcome = .ok n) : e.header.magic <+: input := by
  have hle := (Packet.decode_ok h).2.1
  simp only [packet, Packet.size] at hle
  simp only [packet, Packet.decode, Packet.needing_of_le _ hle] at h
  split at h
  · next hmagic =>
    rw [← hmagic]
    exact List.take_prefix _ _
  · cases h

/-- No envelope is empty. -/
theorem size_pos (e : Envelope) : 0 < e.size := by
  have hmagic : 0 < e.header.magic.length := List.length_pos_iff.mpr e.header.magic_ne
  simp only [size, packet, Packet.size]
  omega

end Envelope

namespace Protocol

/-- How the envelopes are read, in declaration order. -/
def readers (p : Protocol) : List Reader := p.envelopes.map Envelope.reader

/-- Turns do not change how the envelopes of a protocol are read. -/
@[simp] theorem readers_advance (p : Protocol) : p.advance.readers = p.readers := by
  simp only [readers, advance, List.map_map]
  exact List.map_congr_left fun e _ => e.reader_advance

/-- Protocols that read alike have magics of one length. -/
theorem magicSize_congr {p q : Protocol} (h : p.readers = q.readers) :
    p.magicSize = q.magicSize := by
  obtain ⟨es⟩ := p
  obtain ⟨fs⟩ := q
  cases es with
  | nil =>
    cases fs with
    | nil => rfl
    | cons f fs => simp [readers] at h
  | cons e es =>
    cases fs with
    | nil => simp [readers] at h
    | cons f fs =>
      simp only [readers, List.map_cons, List.cons.injEq] at h
      exact congrArg (fun r : Reader => r.magic.length) h.1

/-- An envelope is found by its magic among the readers. -/
theorem find?_eq_readers (p : Protocol) (magic : Bytes) :
    p.find? magic = p.readers.findIdx? fun r => r.magic = magic := by
  simp only [find?, readers, List.findIdx?_map]
  rfl

/-- Protocols that read alike find the same envelopes. -/
theorem find?_congr {p q : Protocol} (h : p.readers = q.readers) (magic : Bytes) :
    p.find? magic = q.find? magic := by
  rw [find?_eq_readers, find?_eq_readers, h]

/-- Envelopes of one place are read alike if the protocols are. -/
theorem getElem?_congr {p q : Protocol} (h : p.readers = q.readers) {i : Nat} {e : Envelope}
    (he : p.envelopes[i]? = some e) : ∃ f, q.envelopes[i]? = some f ∧ f.reader = e.reader := by
  have hi : p.readers[i]? = some e.reader := by rw [readers, List.getElem?_map, he, Option.map_some]
  rw [h, readers, List.getElem?_map, Option.map_eq_some_iff] at hi
  exact hi

/-- The envelope that eating turns to is the one whose magic leads the input. -/
theorem eat_of_find? {p : Protocol} {input : Bytes} {i : Nat} {e : Envelope}
    (hlong : p.magicSize ≤ input.length) (hfind : p.find? (input.take p.magicSize) = some i)
    (he : p.envelopes[i]? = some e) :
    p.eat input =
      (⟨p.envelopes.set i (e.stage (e.packet.decode input).staged)⟩,
        (e.packet.decode input).outcome.map fun consumed => ⟨i, consumed⟩) := by
  have hshort : ¬ input.shorterThan p.magicSize = true := by
    rw [Bytes.shorterThan_iff]
    omega
  simp only [eat, if_neg hshort, hfind, he]

/-- Everything that eating can do. -/
theorem eat_cases (p : Protocol) (input : Bytes) :
    (input.length < p.magicSize ∧
      p.eat input = (p, .error (.insufficient p.magicSize input.length))) ∨
    (p.magicSize ≤ input.length ∧ p.find? (input.take p.magicSize) = none ∧
      p.eat input = (p, .error .unknownMagic)) ∨
    (∃ i e, p.magicSize ≤ input.length ∧ p.find? (input.take p.magicSize) = some i ∧
      p.envelopes[i]? = some e ∧
      p.eat input =
        (⟨p.envelopes.set i (e.stage (e.packet.decode input).staged)⟩,
          (e.packet.decode input).outcome.map fun consumed => ⟨i, consumed⟩)) := by
  rcases Nat.lt_or_ge input.length p.magicSize with hshort | hlong
  · left
    refine ⟨hshort, ?_⟩
    rw [eat, if_pos ((Bytes.shorterThan_iff _ _).mpr hshort)]
  · right
    cases hfind : p.find? (input.take p.magicSize) with
    | none =>
      left
      have hshort : ¬ input.shorterThan p.magicSize = true := by
        rw [Bytes.shorterThan_iff]
        omega
      refine ⟨hlong, rfl, ?_⟩
      simp only [eat, if_neg hshort, hfind]
    | some i =>
      right
      have hi : i < p.envelopes.length := by
        rw [find?] at hfind
        exact (List.findIdx?_eq_some_iff_getElem.mp hfind).1
      have he : p.envelopes[i]? = some p.envelopes[i] := List.getElem?_eq_getElem hi
      exact ⟨i, p.envelopes[i], hlong, rfl, he, eat_of_find? hlong hfind he⟩

/-- Eating stages values of one envelope at most, and keeps what is not about them. -/
theorem map_envelopes_eat {α : Type} {view : Envelope → α}
    (h : ∀ e values, view (e.stage values) = view e) (p : Protocol) (input : Bytes) :
    (p.eat input).1.envelopes.map view = p.envelopes.map view := by
  rcases p.eat_cases input with ⟨-, hout⟩ | ⟨-, -, hout⟩ | ⟨i, e, -, -, he, hout⟩
  · rw [hout]
  · rw [hout]
  · obtain ⟨hi, rfl⟩ := List.getElem?_eq_some_iff.mp he
    have hset := congrArg (List.map view) (List.set_getElem_self hi)
    rw [List.map_set] at hset
    rw [hout, List.map_set, h, hset]

/-- Eating keeps how envelopes are read. -/
@[simp] theorem readers_eat (p : Protocol) (input : Bytes) : (p.eat input).1.readers = p.readers :=
  map_envelopes_eat Envelope.reader_stage p input

/-- An envelope is accepted only in full. Its values alone are then staged. -/
theorem eat_ok {p : Protocol} {input : Bytes} {eaten : Eaten} (h : (p.eat input).2 = .ok eaten) :
    ∃ e, p.envelopes[eaten.envelope]? = some e ∧ p.magicSize ≤ input.length ∧
      p.find? (input.take p.magicSize) = some eaten.envelope ∧
      (e.packet.decode input).outcome = .ok eaten.consumed ∧
      (p.eat input).1.writes eaten.envelope =
        Staged.writes e.leaves (e.packet.decode input).staged := by
  rcases p.eat_cases input with ⟨-, hout⟩ | ⟨-, -, hout⟩ | ⟨i, e, hlong, hfind, he, hout⟩
  · rw [hout] at h
    cases h
  · rw [hout] at h
    cases h
  · rw [hout] at h ⊢
    cases hdecode : (e.packet.decode input).outcome with
    | error fault =>
      simp only [hdecode, Except.map, reduceCtorEq] at h
    | ok n =>
      simp only [hdecode, Except.map, Except.ok.injEq] at h
      subst h
      refine ⟨e, he, hlong, hfind, hdecode, ?_⟩
      obtain ⟨hi, -⟩ := List.getElem?_eq_some_iff.mp he
      simp only [writes, List.getElem?_set_self hi]
      exact Staged.writes_overlay (Packet.decode_ok hdecode).2.2

/-- Asking for more input leaves a protocol as it was. -/
theorem eat_fst_of_insufficient {p : Protocol} {input : Bytes} {needed available : Nat}
    (h : (p.eat input).2 = .error (.insufficient needed available)) : (p.eat input).1 = p := by
  rcases p.eat_cases input with ⟨-, hout⟩ | ⟨-, -, hout⟩ | ⟨i, e, -, -, he, hout⟩
  · rw [hout]
  · rw [hout]
  · rw [hout] at h ⊢
    have hshort := (Packet.decode_insufficient_iff.mp (Packet.map_error_iff.mp h)).1
    obtain ⟨hi, rfl⟩ := List.getElem?_eq_some_iff.mp he
    have hstage : p.envelopes[i].stage [] = p.envelopes[i] := by
      simp [Envelope.stage, Staged.overlay]
    rw [Packet.decode_of_lt _ hshort, hstage, List.set_getElem_self hi]

/-- Unless it asks for more bytes, eating ends and stages the same whatever follows. -/
theorem eat_append {p : Protocol} {input : Bytes} (more : Bytes)
    (h : ∀ needed available, (p.eat input).2 ≠ .error (.insufficient needed available)) :
    p.eat (input ++ more) = p.eat input := by
  have htake (hlong : p.magicSize ≤ input.length) :
      (input ++ more).take p.magicSize = input.take p.magicSize :=
    List.take_append_of_le_length hlong
  have hlonger (hlong : p.magicSize ≤ input.length) :
      p.magicSize ≤ (input ++ more).length := by
    rw [List.length_append]
    omega
  rcases p.eat_cases input with ⟨-, hout⟩ | ⟨hlong, hfind, hout⟩ | ⟨i, e, hlong, hfind, he, hout⟩
  · exact absurd (congrArg Prod.snd hout) (h _ _)
  · have hshort : ¬ (input ++ more).shorterThan p.magicSize = true := by
      rw [Bytes.shorterThan_iff]
      have := hlonger hlong
      omega
    rw [hout, eat, if_neg hshort, htake hlong, hfind]
  · have hsize : e.packet.size ≤ input.length := by
      rcases Nat.lt_or_ge input.length e.packet.size with hlt | hle
      · rw [hout, Packet.decode_of_lt _ hlt] at h
        exact absurd rfl (h _ _)
      · exact hle
    rw [hout, eat_of_find? (hlonger hlong) (by rw [htake hlong, hfind]) he,
      Packet.decode_append more hsize]

/-- Eating asks for more bytes only if the magic or its envelope is not complete. -/
theorem eat_outcome_append {p : Protocol} {input : Bytes} (more : Bytes)
    (h : ∀ needed available, (p.eat input).2 ≠ .error (.insufficient needed available)) :
    (p.eat (input ++ more)).2 = (p.eat input).2 :=
  congrArg Prod.snd (eat_append more h)

/-- The outcome of eating depends only on how envelopes are read. -/
theorem eat_outcome_congr {p q : Protocol} (h : p.readers = q.readers) (input : Bytes) :
    (p.eat input).2 = (q.eat input).2 := by
  rcases p.eat_cases input with ⟨hshort, hout⟩ | ⟨hlong, hfind, hout⟩ |
    ⟨i, e, hlong, hfind, he, hout⟩
  · rw [magicSize_congr h] at hshort hout
    rw [hout, eat, if_pos ((Bytes.shorterThan_iff _ _).mpr hshort)]
  · have hshort : ¬ input.shorterThan q.magicSize = true := by
      rw [Bytes.shorterThan_iff, ← magicSize_congr h]
      omega
    rw [find?_congr h, magicSize_congr h] at hfind
    rw [hout, eat, if_neg hshort, hfind]
  · obtain ⟨f, hf, hreader⟩ := getElem?_congr h he
    have hdecode : f.packet.decode = e.packet.decode := congrArg Reader.decode hreader
    rw [find?_congr h, magicSize_congr h] at hfind
    rw [magicSize_congr h] at hlong
    rw [hout, eat_of_find? hlong hfind hf, hdecode]

/-- What an accepted envelope assigns depends only on how envelopes are read. -/
theorem writes_eat_congr {p q : Protocol} (h : p.readers = q.readers) {input : Bytes}
    {eaten : Eaten} (hok : (p.eat input).2 = .ok eaten) :
    (p.eat input).1.writes eaten.envelope = (q.eat input).1.writes eaten.envelope := by
  obtain ⟨e, he, -, -, -, hp⟩ := eat_ok hok
  obtain ⟨f, hf, -, -, -, hq⟩ := eat_ok ((eat_outcome_congr h input).symm.trans hok)
  obtain ⟨f', hf', hreader⟩ := getElem?_congr h he
  obtain rfl : f' = f := Option.some.inj (hf'.symm.trans hf)
  have hleaves : f'.leaves = e.leaves := congrArg Reader.leaves hreader
  have hdecode : f'.packet.decode = e.packet.decode := congrArg Reader.decode hreader
  rw [hp, hq, hleaves, hdecode]

end Protocol

end DataLink
