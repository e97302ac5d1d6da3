import DataLink.Packet

/-!
# What decoding depends on

Decoding a packet looks at exactly as many bytes as the packet's size. With fewer bytes it
reports how many it needs; with more it ignores the rest. When it succeeds it has staged one
value for every leaf, and every signature at any depth carries the digest it should carry.
-/

namespace DataLink

namespace Packet

mutual

/-- Every signature in the bytes of a packet carries the digest of its nonce, key and payload. -/
def Sealed : Packet → Bytes → Prop
  | .field _, _ => True
  | .bits _, _ => True
  | .sequence packets, bytes => AllSealed packets bytes
  | .signature sig packets, bytes =>
    let nonce := bytes.take sig.nonceBytes
    let payload := (bytes.drop sig.nonceBytes).take (totalSize packets)
    (bytes.drop (sig.nonceBytes + totalSize packets)).take sig.digestBytes =
        (digest (nonce ++ sig.key ++ payload)).take sig.digestBytes ∧
      AllSealed packets payload
  | .envelope header packets, bytes =>
    AllSealed packets ((bytes.drop header.magic.length).take (totalSize packets))

/-- Every signature in the bytes of packets in sequence carries its digest. -/
def AllSealed : List Packet → Bytes → Prop
  | [], _ => True
  | p :: rest, bytes => p.Sealed bytes ∧ AllSealed rest (bytes.drop p.size)

end

/-- An input that is long enough is looked into. -/
theorem needing_of_le {size : Nat} {input : Bytes} (body : Decoded) (h : size ≤ input.length) :
    needing size input body = body := by
  have hlong : ¬ input.shorterThan size = true := by
    rw [Bytes.shorterThan_iff]
    omega
  rw [needing, if_neg hlong]

/-- An input that is too short is refused with the lengths that differ. -/
theorem needing_of_lt {size : Nat} {input : Bytes} (body : Decoded) (h : input.length < size) :
    needing size input body = ⟨[], .error (.insufficient size input.length)⟩ := by
  rw [needing, if_pos ((Bytes.shorterThan_iff input size).mpr h)]

/-- Without enough bytes every packet says how many it needs. -/
theorem decode_of_lt (p : Packet) {input : Bytes} (h : input.length < p.size) :
    p.decode input = ⟨[], .error (.insufficient p.size input.length)⟩ := by
  cases p <;> simp only [size] at h ⊢ <;> simp only [decode, needing_of_lt _ h]

/-- A success of packets in sequence is a success of the first and of the others. -/
theorem decodeAll_cons_of_ok {p : Packet} {rest : List Packet} {input : Bytes} {n : Nat}
    (h : (p.decode input).outcome = .ok n) :
    decodeAll (p :: rest) input =
      ⟨(p.decode input).staged ++ (decodeAll rest (input.drop n)).staged,
        (decodeAll rest (input.drop n)).outcome.map fun m => n + m⟩ := by
  simp only [decodeAll, h]

/-- What the first packet refuses is not given to the others. -/
theorem decodeAll_cons_of_error {p : Packet} {rest : List Packet} {input : Bytes}
    {fault : WireFault} (h : (p.decode input).outcome = .error fault) :
    decodeAll (p :: rest) input = ⟨(p.decode input).staged, .error fault⟩ := by
  simp only [decodeAll, h]

/-- Each source stages one value. -/
theorem length_decodeAll_sources (sources : List BitSource) (bits : Bits) :
    (BitSource.decodeAll sources bits).length = sources.length := by
  induction sources generalizing bits with
  | nil => rfl
  | cons s rest ih => simp only [BitSource.decodeAll, List.length_cons, ih]

/-- What lies within the input does not depend on what follows it. -/
theorem take_drop_append {skip count : Nat} {input more : Bytes}
    (h : skip + count ≤ input.length) :
    ((input ++ more).drop skip).take count = (input.drop skip).take count := by
  rw [List.drop_append_of_le_length (by omega),
    List.take_append_of_le_length (by rw [List.length_drop]; omega)]

/-- A changed result is a success exactly if the result was one. -/
theorem map_ok_iff {ε α β : Type} {f : α → β} {outcome : Except ε α} {b : β} :
    outcome.map f = .ok b ↔ ∃ a, outcome = .ok a ∧ f a = b := by
  cases outcome <;> simp [Except.map]

/-- Changing a result keeps its fault. -/
theorem map_error_iff {ε α β : Type} {f : α → β} {outcome : Except ε α} {fault : ε} :
    outcome.map f = .error fault ↔ outcome = .error fault := by
  cases outcome <;> simp [Except.map]

mutual

/-- A success takes the packet's size from the input and stages one value for every leaf. -/
theorem decode_ok {n : Nat} : ∀ {p : Packet} {input : Bytes},
    (p.decode input).outcome = .ok n →
      n = p.size ∧ p.size ≤ input.length ∧ (p.decode input).staged.length = p.leaves.length
  | p, input, h => by
    have hle : p.size ≤ input.length := by
      rcases Nat.lt_or_ge input.length p.size with hlt | hle
      · rw [decode_of_lt p hlt] at h
        cases h
      · exact hle
    cases p with
    | field f =>
      simp only [size] at hle
      simp only [decode, needing_of_le _ hle, Except.ok.injEq] at h ⊢
      exact ⟨h.symm, hle, rfl⟩
    | bits sources =>
      simp only [size] at hle
      simp only [decode, needing_of_le _ hle, Except.ok.injEq] at h ⊢
      refine ⟨h.symm, hle, ?_⟩
      simp only [leaves, List.length_map, length_decodeAll_sources]
    | sequence packets =>
      simp only [size] at hle
      simp only [decode, needing_of_le _ hle] at h ⊢
      obtain ⟨hn, -, hlen⟩ := decodeAll_ok h
      exact ⟨hn, hle, hlen⟩
    | signature sig packets =>
      simp only [size] at hle
      simp only [decode, needing_of_le _ hle] at h ⊢
      split at h
      · obtain ⟨m, hm, rfl⟩ := map_ok_iff.mp h
        obtain ⟨-, -, hlen⟩ := decodeAll_ok hm
        refine ⟨rfl, hle, ?_⟩
        rw [if_pos ‹_›]
        exact hlen
      · cases h
    | envelope header packets =>
      simp only [size] at hle
      simp only [decode, needing_of_le _ hle] at h ⊢
      split at h
      · obtain ⟨m, hm, rfl⟩ := map_ok_iff.mp h
        obtain ⟨hn, -, hlen⟩ := decodeAll_ok hm
        refine ⟨by rw [hn, size], hle, ?_⟩
        rw [if_pos ‹_›]
        exact hlen
      · cases h

/-- Packets in sequence that accept an input consume their size and stage a value for each leaf. -/
theorem decodeAll_ok {n : Nat} : ∀ {packets : List Packet} {input : Bytes},
    (decodeAll packets input).outcome = .ok n →
      n = totalSize packets ∧ totalSize packets ≤ input.length ∧
        (decodeAll packets input).staged.length = (allLeaves packets).length
  | [], input, h => by
    simp only [decodeAll, Except.ok.injEq] at h
    exact ⟨h.symm, Nat.zero_le _, rfl⟩
  | p :: rest, input, h => by
    cases hfirst : (p.decode input).outcome with
    | error fault =>
      rw [decodeAll_cons_of_error hfirst] at h
      cases h
    | ok k =>
      rw [decodeAll_cons_of_ok hfirst] at h ⊢
      obtain ⟨m, hm, rfl⟩ := map_ok_iff.mp h
      obtain ⟨rfl, hle, hlen⟩ := decode_ok hfirst
      obtain ⟨rfl, hle', hlen'⟩ := decodeAll_ok hm
      rw [List.length_drop] at hle'
      refine ⟨rfl, by simp only [totalSize]; omega, ?_⟩
      simp only [List.length_append, allLeaves, hlen, hlen']

end

mutual

/-- With enough bytes no packet asks for more, however deep a fault lies. -/
theorem decode_ne_insufficient : ∀ {p : Packet} {input : Bytes}, p.size ≤ input.length →
    ∀ needed available, (p.decode input).outcome ≠ .error (.insufficient needed available)
  | p, input, hle, needed, available, h => by
    cases p with
    | field f =>
      simp only [size] at hle
      simp only [decode, needing_of_le _ hle, reduceCtorEq] at h
    | bits sources =>
      simp only [size] at hle
      simp only [decode, needing_of_le _ hle, reduceCtorEq] at h
    | sequence packets =>
      simp only [size] at hle
      simp only [decode, needing_of_le _ hle] at h
      exact decodeAll_ne_insufficient hle needed available h
    | signature sig packets =>
      simp only [size] at hle
      simp only [decode, needing_of_le _ hle] at h
      split at h
      · refine decodeAll_ne_insufficient ?_ needed available (map_error_iff.mp h)
        simp only [List.length_take, List.length_drop]
        omega
      · simp only [Except.error.injEq, reduceCtorEq] at h
    | envelope header packets =>
      simp only [size] at hle
      simp only [decode, needing_of_le _ hle] at h
      split at h
      · refine decodeAll_ne_insufficient ?_ needed available (map_error_iff.mp h)
        simp only [List.length_take, List.length_drop]
        omega
      · simp only [Except.error.injEq, reduceCtorEq] at h

/-- Packets in sequence do not ask for more than their size. -/
theorem decodeAll_ne_insufficient : ∀ {packets : List Packet} {input : Bytes},
    totalSize packets ≤ input.length →
    ∀ needed available, (decodeAll packets input).outcome ≠ .error (.insufficient needed available)
  | [], input, _, needed, available, h => by simp only [decodeAll, reduceCtorEq] at h
  | p :: rest, input, hle, needed, available, h => by
    simp only [totalSize] at hle
    cases hfirst : (p.decode input).outcome with
    | error fault =>
      rw [decodeAll_cons_of_error hfirst] at h
      exact decode_ne_insufficient (by omega) needed available (hfirst.trans h)
    | ok k =>
      rw [decodeAll_cons_of_ok hfirst] at h
      obtain ⟨rfl, hfits, -⟩ := decode_ok hfirst
      refine decodeAll_ne_insufficient ?_ needed available (map_error_iff.mp h)
      rw [List.length_drop]
      omega

end

/-- Decoding asks for more bytes exactly if there are fewer than the packet's size. -/
theorem decode_insufficient_iff {p : Packet} {input : Bytes} {needed available : Nat} :
    (p.decode input).outcome = .error (.insufficient needed available) ↔
      input.length < p.size ∧ needed = p.size ∧ available = input.length := by
  constructor
  · intro h
    rcases Nat.lt_or_ge input.length p.size with hlt | hle
    · rw [decode_of_lt p hlt] at h
      simp only [Except.error.injEq, WireFault.insufficient.injEq] at h
      exact ⟨hlt, h.1.symm, h.2.symm⟩
    · exact absurd h (decode_ne_insufficient hle needed available)
  · rintro ⟨hlt, rfl, rfl⟩
    rw [decode_of_lt p hlt]

mutual

/-- Bytes beyond the packet's size do not matter. -/
theorem decode_append : ∀ {p : Packet} {input : Bytes} (more : Bytes), p.size ≤ input.length →
    p.decode (input ++ more) = p.decode input
  | p, input, more, hle => by
    have hle' : p.size ≤ (input ++ more).length := by
      rw [List.length_append]
      omega
    cases p with
    | field f =>
      simp only [size] at hle hle'
      simp only [decode, needing_of_le _ hle, needing_of_le _ hle',
        List.take_append_of_le_length hle]
    | bits sources =>
      simp only [size] at hle hle'
      simp only [decode, needing_of_le _ hle, needing_of_le _ hle',
        List.take_append_of_le_length hle]
    | sequence packets =>
      simp only [size] at hle hle'
      simp only [decode, needing_of_le _ hle, needing_of_le _ hle']
      exact decodeAll_append more hle
    | signature sig packets =>
      simp only [size] at hle hle'
      simp only [decode, needing_of_le _ hle, needing_of_le _ hle',
        List.take_append_of_le_length (show sig.nonceBytes ≤ input.length by omega),
        take_drop_append (show sig.nonceBytes + totalSize packets ≤ input.length by omega),
        take_drop_append hle]
    | envelope header packets =>
      simp only [size] at hle hle'
      simp only [decode, needing_of_le _ hle, needing_of_le _ hle',
        List.take_append_of_le_length (show header.magic.length ≤ input.length by omega),
        take_drop_append hle]

/-- What packets in sequence decode does not depend on what lies beyond their size. -/
theorem decodeAll_append : ∀ {packets : List Packet} {input : Bytes} (more : Bytes),
    totalSize packets ≤ input.length →
    decodeAll packets (input ++ more) = decodeAll packets input
  | [], input, more, _ => by simp only [decodeAll]
  | p :: rest, input, more, hle => by
    simp only [totalSize] at hle
    have hfirst : p.decode (input ++ more) = p.decode input := decode_append more (by omega)
    simp only [decodeAll, hfirst]
    cases hout : (p.decode input).outcome with
    | error fault => rfl
    | ok k =>
      obtain ⟨rfl, hfits, -⟩ := decode_ok hout
      have hothers : decodeAll rest (input.drop p.size ++ more) =
          decodeAll rest (input.drop p.size) :=
        decodeAll_append more (by rw [List.length_drop]; omega)
      simp only [List.drop_append_of_le_length hfits, hothers]

end

mutual

/-- What is decoded successfully is sealed: each signature was compared with its digest. -/
theorem sealed_of_decode {n : Nat} : ∀ {p : Packet} {input : Bytes},
    (p.decode input).outcome = .ok n → p.Sealed input
  | p, input, h => by
    have hle := (decode_ok h).2.1
    cases p with
    | field f => trivial
    | bits sources => trivial
    | sequence packets =>
      simp only [size] at hle
      simp only [decode, needing_of_le _ hle] at h
      exact sealed_of_decodeAll h
    | signature sig packets =>
      simp only [size] at hle
      simp only [decode, needing_of_le _ hle] at h
      split at h
      · next htag =>
        obtain ⟨m, hm, -⟩ := map_ok_iff.mp h
        exact ⟨htag.symm, sealed_of_decodeAll hm⟩
      · cases h
    | envelope header packets =>
      simp only [size] at hle
      simp only [decode, needing_of_le _ hle] at h
      split at h
      · obtain ⟨m, hm, -⟩ := map_ok_iff.mp h
        exact sealed_of_decodeAll hm
      · cases h

/-- Packets in sequence accept no input without valid seals. -/
theorem sealed_of_decodeAll {n : Nat} : ∀ {packets : List Packet} {input : Bytes},
    (decodeAll packets input).outcome = .ok n → AllSealed packets input
  | [], input, _ => trivial
  | p :: rest, input, h => by
    cases hfirst : (p.decode input).outcome with
    | error fault =>
      rw [decodeAll_cons_of_error hfirst] at h
      cases h
    | ok k =>
      rw [decodeAll_cons_of_ok hfirst] at h
      obtain ⟨m, hm, -⟩ := map_ok_iff.mp h
      obtain ⟨rfl, -, -⟩ := decode_ok hfirst
      exact ⟨sealed_of_decode hfirst, sealed_of_decodeAll hm⟩

end

mutual

/-- Emitting changes nonces and cadences. Neither matters for decoding. -/
theorem size_advance : ∀ p : Packet, p.advance.size = p.size
  | .field _ => rfl
  | .bits _ => rfl
  | .sequence packets => by simp only [advance, size, totalSize_advanceAll packets]
  | .signature sig packets => by
    simp only [advance, size, totalSize_advanceAll packets, Signature.next]
  | .envelope header packets => by
    cases h : header.isDue <;>
      simp [advance, size, h, totalSize_advanceAll packets, Header.next]

/-- Turns do not change the size of packets in sequence. -/
theorem totalSize_advanceAll : ∀ packets : List Packet,
    totalSize (advanceAll packets) = totalSize packets
  | [] => rfl
  | p :: rest => by
    simp only [advanceAll, totalSize, size_advance p, totalSize_advanceAll rest]

end

mutual

/-- Turns do not change the leaves of a packet. -/
theorem leaves_advance : ∀ p : Packet, p.advance.leaves = p.leaves
  | .field _ => rfl
  | .bits _ => rfl
  | .sequence packets => by simp only [advance, leaves, allLeaves_advanceAll packets]
  | .signature sig packets => by simp only [advance, leaves, allLeaves_advanceAll packets]
  | .envelope header packets => by
    cases h : header.isDue <;> simp [advance, leaves, h, allLeaves_advanceAll packets]

/-- Turns do not change the leaves of packets in sequence. -/
theorem allLeaves_advanceAll : ∀ packets : List Packet,
    allLeaves (advanceAll packets) = allLeaves packets
  | [] => rfl
  | p :: rest => by
    simp only [advanceAll, allLeaves, leaves_advance p, allLeaves_advanceAll rest]

end

mutual

/-- Turns do not change how a packet is read. -/
theorem decode_advance : ∀ (p : Packet) (input : Bytes), p.advance.decode input = p.decode input
  | .field _, _ => rfl
  | .bits _, _ => rfl
  | .sequence packets, input => by
    simp only [advance, decode, totalSize_advanceAll, decodeAll_advanceAll packets]
  | .signature sig packets, input => by
    simp only [advance, decode, totalSize_advanceAll, decodeAll_advanceAll packets]
    rfl
  | .envelope header packets, input => by
    cases h : header.isDue <;>
      simp [advance, decode, h, totalSize_advanceAll, decodeAll_advanceAll packets, Header.next]

/-- Turns do not change how packets in sequence are read. -/
theorem decodeAll_advanceAll : ∀ (packets : List Packet) (input : Bytes),
    decodeAll (advanceAll packets) input = decodeAll packets input
  | [], _ => rfl
  | p :: rest, input => by
    simp only [advanceAll, decodeAll, decode_advance p, decodeAll_advanceAll rest]

end

end Packet

end DataLink
