import DataLink.Proofs.Mirror
import DataLink.Proofs.Reencoding

/-!
# What a failed eat leaves behind

An envelope is decoded leaf by leaf, and a leaf's value is staged before what stands behind it is
checked. So a wrong digest, or a wrong magic inside, leaves the values of the leaves in front of it
staged. It changes nothing if and only if no leaf stands in front of a signature or of an inner
envelope, other than inside it. What was left behind is never delivered once the envelope is
accepted.
-/

namespace DataLink

namespace Packet

mutual

/-- No leaf stands in front of a signature or of an envelope that it is not part of. -/
def Atomic : Packet → Prop
  | .field _ => True
  | .bits _ => True
  | .sequence packets => AllAtomic packets
  | .signature _ packets => AllAtomic packets
  | .envelope _ packets => AllAtomic packets

/-- In no packet, and in none of those in front of another, stands a leaf in front of a signature
or of an envelope. -/
def AllAtomic : List Packet → Prop
  | [] => True
  | p :: rest => p.Atomic ∧ AllAtomic rest ∧ (p.leaves = [] ∨ AllBare rest)

end

mutual

/-- Only a signature and an envelope refuse bytes that are enough. -/
theorem decode_ok_of_bare : ∀ {p : Packet} {input : Bytes}, p.Bare → p.size ≤ input.length →
    (p.decode input).outcome = .ok p.size
  | .field f, input, _, hle => by
    rw [size] at hle
    rw [decode, needing_of_le _ hle, size]
  | .bits sources, input, _, hle => by
    rw [size] at hle
    simp only [decode]
    rw [needing_of_le _ hle, size]
  | .sequence packets, input, hbare, hle => by
    rw [Bare] at hbare
    rw [size] at hle ⊢
    rw [decode, needing_of_le _ hle, decodeAll_ok_of_bare hbare hle]

/-- Bare packets in sequence decode every input that is long enough. -/
theorem decodeAll_ok_of_bare : ∀ {packets : List Packet} {input : Bytes}, AllBare packets →
    totalSize packets ≤ input.length →
    (decodeAll packets input).outcome = .ok (totalSize packets)
  | [], _, _, _ => rfl
  | p :: rest, input, hbare, hle => by
    rw [totalSize] at hle ⊢
    have hfirst : (p.decode input).outcome = .ok p.size := decode_ok_of_bare hbare.1 (by omega)
    have hothers : (decodeAll rest (input.drop p.size)).outcome = .ok (totalSize rest) :=
      decodeAll_ok_of_bare hbare.2 (by rw [List.length_drop]; omega)
    rw [decodeAll_cons_of_ok hfirst, hothers]
    rfl

end

mutual

/-- An atomic packet stages nothing when it is refused. -/
theorem staged_of_error {fault : WireFault} : ∀ {p : Packet} {input : Bytes}, p.Atomic →
    (p.decode input).outcome = .error fault → (p.decode input).staged = []
  | p, input, hatomic, h => by
    rcases Nat.lt_or_ge input.length p.size with hlt | hle
    · rw [decode_of_lt p hlt]
    cases p with
    | field f =>
      rw [size] at hle
      simp only [decode, needing_of_le _ hle, reduceCtorEq] at h
    | bits sources =>
      rw [size] at hle
      simp only [decode, needing_of_le _ hle, reduceCtorEq] at h
    | sequence packets =>
      rw [size] at hle
      rw [Atomic] at hatomic
      rw [decode, needing_of_le _ hle] at h ⊢
      exact staged_of_errorAll hatomic hle h
    | signature sig packets =>
      rw [size] at hle
      rw [Atomic] at hatomic
      simp only [decode, needing_of_le _ hle] at h ⊢
      split
      · next htag =>
        rw [if_pos htag] at h
        refine staged_of_errorAll hatomic ?_ (map_error_iff.mp h)
        simp only [List.length_take, List.length_drop]
        omega
      · rfl
    | envelope header packets =>
      rw [size] at hle
      rw [Atomic] at hatomic
      simp only [decode, needing_of_le _ hle] at h ⊢
      split
      · next hmagic =>
        rw [if_pos hmagic] at h
        refine staged_of_errorAll hatomic ?_ (map_error_iff.mp h)
        simp only [List.length_take, List.length_drop]
        omega
      · rfl

/-- Atomic packets in sequence that refuse an input which is long enough stage nothing. -/
theorem staged_of_errorAll {fault : WireFault} : ∀ {packets : List Packet} {input : Bytes},
    AllAtomic packets → totalSize packets ≤ input.length →
    (decodeAll packets input).outcome = .error fault → (decodeAll packets input).staged = []
  | [], _, _, _, h => by simp only [decodeAll, reduceCtorEq] at h
  | p :: rest, input, hatomic, hle, h => by
    obtain ⟨hp, hrest, hfront⟩ := hatomic
    rw [totalSize] at hle
    cases hfirst : (p.decode input).outcome with
    | error found =>
      rw [decodeAll_cons_of_error hfirst]
      exact staged_of_error hp hfirst
    | ok n =>
      obtain ⟨rfl, -, hlength⟩ := decode_ok hfirst
      have hle' : totalSize rest ≤ (input.drop p.size).length := by
        rw [List.length_drop]
        omega
      rw [decodeAll_cons_of_ok hfirst] at h ⊢
      have hothers := map_error_iff.mp h
      rcases hfront with hleaves | hbare
      · rw [hleaves, List.length_nil] at hlength
        rw [List.eq_nil_of_length_eq_zero hlength, List.nil_append]
        exact staged_of_errorAll hrest hle' hothers
      · rw [decodeAll_ok_of_bare hbare hle'] at hothers
        cases hothers

end

end Packet

namespace Decoded

/-- Everything was accepted, and every staged value is one other than nil. -/
structure Full (d : Decoded) (size : Nat) : Prop where
  accepted : d.outcome = .ok size
  values : ∀ staged ∈ d.staged, staged.isSome = true

/-- Something was refused, but a value had been staged before. -/
structure Torn (d : Decoded) : Prop where
  refused : ∃ fault, d.outcome = .error fault
  value : ∃ v, some v ∈ d.staged

variable {d : Decoded} {size : Nat}

/-- Counting bytes differently keeps what is decoded in full. -/
theorem Full.map {count : Nat → Nat} (h : d.Full size) :
    (⟨d.staged, d.outcome.map count⟩ : Decoded).Full (count size) :=
  ⟨Packet.map_ok_iff.mpr ⟨size, h.accepted, rfl⟩, h.values⟩

/-- Counting bytes differently mends nothing that is torn. -/
theorem Torn.map {count : Nat → Nat} (h : d.Torn) :
    (⟨d.staged, d.outcome.map count⟩ : Decoded).Torn :=
  ⟨h.refused.imp fun _ hfault => Packet.map_error_iff.mpr hfault, h.value⟩

end Decoded

/-- The pattern zero is the number zero in every format. -/
theorem Format.decode_zero {f : Format} (h : 0 < f.infinity) : f.decode 0 = .zero := by
  have hmagnitude : f.magnitude 0 = 0 := by
    rw [magnitude, Nat.zero_sub, Nat.zero_mul]
  have hsign : ¬ f.signPlace ≤ 0 := Nat.not_le.mpr (Nat.two_pow_pos _)
  rw [decode, Nat.zero_mod, hmagnitude, Nat.zero_mul, decide_eq_false hsign,
    if_neg (Nat.not_lt_zero _), if_neg (Nat.ne_of_lt h)]
  rfl

/-- Zeros stand for a value in every field. -/
theorem Field.isSome_decode_zero (f : Field) :
    (f.decode (Bytes.ofNat f.size 0)).isSome = true := by
  cases f with
  | signed f => rfl
  | unsigned f => rfl
  | float f =>
    have hinfinity : 0 < f.width.format.infinity := by
      cases f.width <;> decide
    rw [decode, FloatField.decode, Bytes.toNat_ofNat, Nat.zero_mod, Format.decode_zero hinfinity]
    rfl

/-- A string can be changed unless it is empty. -/
theorem Bytes.exists_ne {bytes : Bytes} (h : bytes ≠ []) :
    ∃ other : Bytes, other.length = bytes.length ∧ other ≠ bytes := by
  obtain ⟨b, rest, rfl⟩ := List.exists_cons_of_ne_nil h
  refine ⟨(b + 1) :: rest, rfl, ?_⟩
  intro heq
  have hne : b + 1 ≠ b := by grind
  exact hne (List.cons.inj heq).1

namespace Packet

/-- A sequence that is long enough is decoded packet by packet. -/
theorem decode_sequence {packets : List Packet} {input : Bytes}
    (h : totalSize packets ≤ input.length) :
    (sequence packets).decode input = decodeAll packets input := needing_of_le _ h

/-- What follows an accepted packet is decoded by the packets behind it. -/
theorem decodeAll_append_of_ok {p : Packet} {rest : List Packet} {first others : Bytes}
    (hlength : first.length = p.size) (h : (p.decode first).outcome = .ok p.size) :
    decodeAll (p :: rest) (first ++ others) =
      ⟨(p.decode first).staged ++ (decodeAll rest others).staged,
        (decodeAll rest others).outcome.map fun m => p.size + m⟩ := by
  have hfirst := decode_append others (Nat.le_of_eq hlength.symm)
  rw [decodeAll_cons_of_ok (hfirst ▸ h), hfirst, List.drop_left' hlength]

/-- What the first packet refuses ends the decoding, and its own staged values stay. -/
theorem decodeAll_append_of_error {p : Packet} {rest : List Packet} {first others : Bytes}
    {fault : WireFault} (hlength : first.length = p.size)
    (h : (p.decode first).outcome = .error fault) :
    decodeAll (p :: rest) (first ++ others) = ⟨(p.decode first).staged, .error fault⟩ := by
  have hfirst := decode_append others (Nat.le_of_eq hlength.symm)
  rw [decodeAll_cons_of_error (hfirst ▸ h), hfirst]

/-- A signature decodes a payload that it wraps itself. -/
theorem decode_wrap (sig : Signature) {packets : List Packet} {payload : Bytes}
    (hpayload : payload.length = totalSize packets) :
    (sig.wrap payload).length = (signature sig packets).size ∧
      (signature sig packets).decode (sig.wrap payload) =
        ⟨(decodeAll packets payload).staged,
          (decodeAll packets payload).outcome.map fun _ => (signature sig packets).size⟩ := by
  have htag := sig.length_tag sig.nonce payload
  constructor
  · simp only [Signature.wrap, List.length_append, sig.length_nonce, htag, hpayload, size]
  · rw [Signature.wrap, decode_signature sig.length_nonce hpayload htag, if_pos rfl]

/-- An envelope decodes a payload that stands behind its magic. -/
theorem decode_magic (header : Header) {packets : List Packet} {payload : Bytes}
    (hpayload : payload.length = totalSize packets) :
    (header.magic ++ payload).length = (envelope header packets).size ∧
      (envelope header packets).decode (header.magic ++ payload) =
        ⟨(decodeAll packets payload).staged,
          (decodeAll packets payload).outcome.map fun n => header.magic.length + n⟩ := by
  constructor
  · rw [List.length_append, hpayload, size]
  · rw [decode_envelope rfl hpayload, if_pos rfl]

mutual

/-- Every packet accepts some bytes and stages values for all of its leaves. -/
theorem exists_full : ∀ p : Packet,
    ∃ bytes : Bytes, bytes.length = p.size ∧ (p.decode bytes).Full p.size
  | .field f => by
    have hlength := Bytes.length_ofNat f.size 0
    refine ⟨Bytes.ofNat f.size 0, hlength, ?_⟩
    rw [decode, needing_of_le _ (Nat.le_of_eq hlength.symm), List.take_of_length_le
      (Nat.le_of_eq hlength), size]
    refine ⟨rfl, fun staged hstaged => ?_⟩
    rw [List.mem_singleton.mp hstaged]
    exact f.isSome_decode_zero
  | .bits sources => by
    have hlength := List.length_replicate (n := BitSource.totalBytes sources) (a := (0 : UInt8))
    refine ⟨_, hlength, ?_⟩
    simp only [decode]
    rw [needing_of_le _ (Nat.le_of_eq hlength.symm), size]
    refine ⟨rfl, fun staged hstaged => ?_⟩
    obtain ⟨v, -, rfl⟩ := List.mem_map.mp hstaged
    rfl
  | .sequence packets => by
    obtain ⟨bytes, hlength, hfull⟩ := exists_fullAll packets
    refine ⟨bytes, hlength, ?_⟩
    rwa [decode_sequence (Nat.le_of_eq hlength.symm), size]
  | .signature sig packets => by
    obtain ⟨payload, hpayload, hfull⟩ := exists_fullAll packets
    obtain ⟨hlength, hdecode⟩ := decode_wrap sig hpayload
    refine ⟨sig.wrap payload, hlength, ?_⟩
    rw [hdecode]
    exact hfull.map
  | .envelope header packets => by
    obtain ⟨payload, hpayload, hfull⟩ := exists_fullAll packets
    obtain ⟨hlength, hdecode⟩ := decode_magic header hpayload
    refine ⟨header.magic ++ payload, hlength, ?_⟩
    rw [hdecode, size]
    exact hfull.map

/-- Some input is decoded in full by packets in sequence. -/
theorem exists_fullAll : ∀ packets : List Packet, ∃ bytes : Bytes,
    bytes.length = totalSize packets ∧ (decodeAll packets bytes).Full (totalSize packets)
  | [] => ⟨[], rfl, rfl, fun _ hmem => nomatch hmem⟩
  | p :: rest => by
    obtain ⟨first, hlength, hfull⟩ := exists_full p
    obtain ⟨others, hlength', hfull'⟩ := exists_fullAll rest
    refine ⟨first ++ others, by rw [List.length_append, hlength, hlength', totalSize], ?_⟩
    rw [decodeAll_append_of_ok hlength hfull.accepted, totalSize]
    refine ⟨map_ok_iff.mpr ⟨_, hfull'.accepted, rfl⟩, ?_⟩
    exact List.forall_mem_append.mpr ⟨hfull.values, hfull'.values⟩

end

mutual

/-- A signature refuses a wrong digest, and an envelope refuses a wrong magic. -/
theorem exists_refused : ∀ {p : Packet}, ¬ p.Bare →
    ∃ bytes : Bytes, bytes.length = p.size ∧ ∃ fault, (p.decode bytes).outcome = .error fault
  | .field _, h => absurd trivial h
  | .bits _, h => absurd trivial h
  | .sequence packets, h => by
    rw [Bare] at h
    obtain ⟨bytes, hlength, hfault⟩ := exists_refusedAll h
    refine ⟨bytes, hlength, ?_⟩
    rwa [decode_sequence (Nat.le_of_eq hlength.symm)]
  | .signature sig packets, _ => by
    obtain ⟨payload, hpayload, -⟩ := exists_fullAll packets
    have htag := sig.length_tag sig.nonce payload
    have hne : sig.tag sig.nonce payload ≠ [] := by
      rw [← List.length_pos_iff, htag]
      exact sig.digestBytes_pos
    obtain ⟨wrong, hlength, hwrong⟩ := Bytes.exists_ne hne
    rw [htag] at hlength
    refine ⟨sig.nonce ++ payload ++ wrong, ?_, .signatureMismatch, ?_⟩
    · simp only [List.length_append, sig.length_nonce, hlength, hpayload, size]
    · rw [decode_signature sig.length_nonce hpayload hlength, if_neg hwrong.symm]
  | .envelope header packets, _ => by
    obtain ⟨payload, hpayload, -⟩ := exists_fullAll packets
    obtain ⟨wrong, hlength, hwrong⟩ := Bytes.exists_ne header.magic_ne
    refine ⟨wrong ++ payload, ?_, .unknownMagic, ?_⟩
    · rw [List.length_append, hlength, hpayload, size]
    · rw [decode_envelope hlength hpayload, if_neg hwrong]

/-- Packets of which one is not bare refuse some input that is long enough. -/
theorem exists_refusedAll : ∀ {packets : List Packet}, ¬ AllBare packets →
    ∃ bytes : Bytes, bytes.length = totalSize packets ∧
      ∃ fault, (decodeAll packets bytes).outcome = .error fault
  | [], h => absurd trivial h
  | p :: rest, h => by
    rw [AllBare, Classical.not_and_iff_not_or_not] at h
    rcases h with hp | hrest
    · obtain ⟨first, hlength, fault, hfault⟩ := exists_refused hp
      obtain ⟨others, hlength', -⟩ := exists_fullAll rest
      refine ⟨first ++ others, by rw [List.length_append, hlength, hlength', totalSize], fault, ?_⟩
      rw [decodeAll_append_of_error hlength hfault]
    · obtain ⟨first, hlength, hfull⟩ := exists_full p
      obtain ⟨others, hlength', fault, hfault⟩ := exists_refusedAll hrest
      refine ⟨first ++ others, by rw [List.length_append, hlength, hlength', totalSize], fault, ?_⟩
      rw [decodeAll_append_of_ok hlength hfull.accepted]
      exact map_error_iff.mpr hfault

end

/-- What is accepted by a packet with leaves stages a value. -/
theorem exists_some_of_full {p : Packet} {input : Bytes} (hleaves : p.leaves ≠ [])
    (h : (p.decode input).Full p.size) : ∃ v, some v ∈ (p.decode input).staged := by
  have hlength := (decode_ok h.accepted).2.2
  have hpos : 0 < (p.decode input).staged.length := by
    rw [hlength]
    exact List.length_pos_iff.mpr hleaves
  obtain ⟨staged, hmem⟩ := List.exists_mem_of_length_pos hpos
  obtain ⟨v, rfl⟩ := Option.isSome_iff_exists.mp (h.values staged hmem)
  exact ⟨v, hmem⟩

mutual

/-- A packet that is not atomic can be refused after a value was staged. -/
theorem exists_torn : ∀ {p : Packet}, ¬ p.Atomic →
    ∃ bytes : Bytes, bytes.length = p.size ∧ (p.decode bytes).Torn
  | .field _, h => absurd trivial h
  | .bits _, h => absurd trivial h
  | .sequence packets, h => by
    rw [Atomic] at h
    obtain ⟨bytes, hlength, htorn⟩ := exists_tornAll h
    refine ⟨bytes, hlength, ?_⟩
    rwa [decode_sequence (Nat.le_of_eq hlength.symm)]
  | .signature sig packets, h => by
    rw [Atomic] at h
    obtain ⟨payload, hpayload, htorn⟩ := exists_tornAll h
    obtain ⟨hlength, hdecode⟩ := decode_wrap sig hpayload
    refine ⟨sig.wrap payload, hlength, ?_⟩
    rw [hdecode]
    exact htorn.map
  | .envelope header packets, h => by
    rw [Atomic] at h
    obtain ⟨payload, hpayload, htorn⟩ := exists_tornAll h
    obtain ⟨hlength, hdecode⟩ := decode_magic header hpayload
    refine ⟨header.magic ++ payload, hlength, ?_⟩
    rw [hdecode]
    exact htorn.map

/-- Packets that are not atomic tear some input that is long enough. -/
theorem exists_tornAll : ∀ {packets : List Packet}, ¬ AllAtomic packets →
    ∃ bytes : Bytes, bytes.length = totalSize packets ∧ (decodeAll packets bytes).Torn
  | [], h => absurd trivial h
  | p :: rest, h => by
    rw [AllAtomic, Classical.not_and_iff_not_or_not, Classical.not_and_iff_not_or_not] at h
    obtain ⟨first, hfirst, hfull⟩ := exists_full p
    rcases h with hp | hrest | hfront
    · obtain ⟨torn, hlength, ⟨fault, hfault⟩, hvalue⟩ := exists_torn hp
      obtain ⟨others, hlength', -⟩ := exists_fullAll rest
      refine ⟨torn ++ others, by rw [List.length_append, hlength, hlength', totalSize], ?_⟩
      rw [decodeAll_append_of_error hlength hfault]
      exact ⟨⟨fault, rfl⟩, hvalue⟩
    · obtain ⟨others, hlength, ⟨fault, hfault⟩, v, hv⟩ := exists_tornAll hrest
      refine ⟨first ++ others, by rw [List.length_append, hfirst, hlength, totalSize], ?_⟩
      rw [decodeAll_append_of_ok hfirst hfull.accepted]
      exact ⟨⟨fault, map_error_iff.mpr hfault⟩, v, List.mem_append_right _ hv⟩
    · obtain ⟨hleaves, hbare⟩ := not_or.mp hfront
      obtain ⟨others, hlength, fault, hfault⟩ := exists_refusedAll hbare
      obtain ⟨v, hv⟩ := exists_some_of_full hleaves hfull
      refine ⟨first ++ others, by rw [List.length_append, hfirst, hlength, totalSize], ?_⟩
      rw [decodeAll_append_of_ok hfirst hfull.accepted]
      exact ⟨⟨fault, map_error_iff.mpr hfault⟩, v, List.mem_append_left _ hv⟩

end

end Packet

/-- An envelope for which no value was staged yet is changed by the first one. -/
theorem Envelope.stage_ne {e : Envelope} (hfresh : e.staged = .empty e.leaves) {staged : Staged}
    {v : Value} (hv : some v ∈ staged) : e.stage staged ≠ e := by
  intro heq
  have hold : e.staged.overlay staged = e.staged := congrArg Envelope.staged heq
  have hmem : some v ∈ e.staged := hold ▸ List.mem_append_left _ hv
  rw [hfresh] at hmem
  exact Option.some_ne_none v (List.eq_of_mem_replicate hmem)

namespace Protocol

variable {p q : Protocol}

/-- A fault leaves everything as it was if nothing was staged before it. -/
theorem eat_fst_of_error {input : Bytes} {fault : WireFault}
    (hstaged : ∀ e ∈ q.envelopes, (e.packet.decode input).outcome = .error fault →
      (e.packet.decode input).staged = [])
    (h : (q.eat input).2 = .error fault) : (q.eat input).1 = q := by
  rcases q.eat_cases input with ⟨-, hout⟩ | ⟨-, -, hout⟩ | ⟨i, e, -, -, he, hout⟩
  · rw [hout]
  · rw [hout]
  · obtain ⟨hi, rfl⟩ := List.getElem?_eq_some_iff.mp he
    rw [hout] at h ⊢
    rw [hstaged _ (List.getElem_mem hi) (Packet.map_error_iff.mp h)]
    have hset : q.envelopes.set i (q.envelopes[i].stage []) = q.envelopes :=
      List.set_getElem_self hi
    rw [hset]

/-- Atomic envelopes are not changed by any fault, in whichever state they are. -/
theorem eat_fst_of_allAtomic (hatomic : ∀ e ∈ p.envelopes, Packet.AllAtomic e.packets)
    (hreaders : q.readers = p.readers) {input : Bytes} {fault : WireFault}
    (h : (q.eat input).2 = .error fault) : (q.eat input).1 = q := by
  refine eat_fst_of_error (fun e he hdecode => ?_) h
  obtain ⟨i, hi⟩ := List.getElem?_of_mem he
  obtain ⟨f, hf, hreader⟩ := getElem?_congr hreaders hi
  have hsame : f.packet.decode = e.packet.decode := congrArg Reader.decode hreader
  have hpacket : f.packet.Atomic := hatomic f (List.mem_of_getElem? hf)
  rw [← hsame] at hdecode ⊢
  exact Packet.staged_of_error hpacket hdecode

/-- Eating changes at most the envelope whose magic leads the input. -/
theorem getElem?_eat {input : Bytes} {place : Nat}
    (h : q.find? (input.take q.magicSize) ≠ some place) :
    (q.eat input).1.envelopes[place]? = q.envelopes[place]? := by
  rcases q.eat_cases input with ⟨-, hout⟩ | ⟨-, -, hout⟩ | ⟨i, e, -, hfind, -, hout⟩
  · rw [hout]
  · rw [hout]
  · have hne : i ≠ place := fun heq => h (heq ▸ hfind)
    rw [hout]
    exact List.getElem?_set_ne hne

/-- What was staged before has no part in what an accepted envelope delivers. -/
theorem deliver_eat_of_eat (refused : Bytes) {input : Bytes} {eaten : Eaten}
    (h : (q.eat input).2 = .ok eaten) :
    ((q.eat refused).1.eat input).2 = .ok eaten ∧ ∀ cells,
      ((q.eat refused).1.eat input).1.deliver eaten.envelope cells =
        (q.eat input).1.deliver eaten.envelope cells := by
  have hreaders := (q.readers_eat refused).symm
  refine ⟨by rw [← eat_outcome_congr hreaders, h], fun cells => ?_⟩
  rw [deliver_eq_replay, deliver_eq_replay, writes_eat_congr hreaders h]

/-- Of a fresh protocol, an envelope that is not atomic can be changed by bytes that are refused. -/
theorem exists_eat_fst_ne (hdistinct : p.Distinct) {e : Envelope} (he : e ∈ p.envelopes)
    (hfresh : e.staged = .empty e.leaves) (hatomic : ¬ Packet.AllAtomic e.packets) :
    ∃ input fault, (p.eat input).2 = .error fault ∧ (p.eat input).1 ≠ p := by
  obtain ⟨i, hi⟩ := List.getElem?_of_mem he
  obtain ⟨payload, hpayload, htorn⟩ := Packet.exists_tornAll hatomic
  obtain ⟨hlength, hdecode⟩ := Packet.decode_magic e.header hpayload
  have hmagic := hdistinct.length e he
  have hlong : p.magicSize ≤ (e.header.magic ++ payload).length := by
    rw [List.length_append]
    omega
  have hfind : p.find? ((e.header.magic ++ payload).take p.magicSize) = some i := by
    rw [List.take_left' hmagic, hdistinct.find? hi]
  have hout := eat_of_find? hlong hfind hi
  rw [Envelope.packet, hdecode] at hout
  obtain ⟨⟨fault, hfault⟩, v, hv⟩ := htorn
  refine ⟨e.header.magic ++ payload, fault, ?_, ?_⟩
  · rw [hout]
    exact Packet.map_error_iff.mpr (Packet.map_error_iff.mpr hfault)
  · intro hsame
    have hset := congrArg (fun q : Protocol => q.envelopes[i]?) (hout ▸ hsame)
    obtain ⟨hplace, -⟩ := List.getElem?_eq_some_iff.mp hi
    simp only [List.getElem?_set_self hplace, hi, Option.some.injEq] at hset
    exact Envelope.stage_ne hfresh hv hset

/-- When a failed eat changes nothing. For a protocol of new envelopes this holds in all states and
for all inputs if and only if no leaf stands in front of a signature or of an inner envelope that it
is not part of. For any protocol it holds as long as bytes are missing. All envelopes are kept but
the one whose magic leads the input, and what is left behind in that one is not delivered with the
next envelope that is accepted. -/
theorem failed_eat_keeps_iff_allAtomic {es : List Envelope} {p : Protocol}
    (h : Protocol.new es = .ok p) (hfresh : ∀ e ∈ es, e.staged = .empty e.leaves) :
    ((∀ q, p.Reaches q → ∀ input fault, (q.eat input).2 = .error fault → (q.eat input).1 = q) ↔
      ∀ e ∈ p.envelopes, Packet.AllAtomic e.packets) ∧
    (∀ q, p.Reaches q → ∀ input needed available,
      (q.eat input).2 = .error (.insufficient needed available) → (q.eat input).1 = q) ∧
    (∀ q, p.Reaches q → ∀ input place, q.find? (input.take q.magicSize) ≠ some place →
      (q.eat input).1.envelopes[place]? = q.envelopes[place]?) ∧
    ∀ q, p.Reaches q → ∀ refused input eaten, (q.eat input).2 = .ok eaten →
      ((q.eat refused).1.eat input).2 = .ok eaten ∧ ∀ cells,
        ((q.eat refused).1.eat input).1.deliver eaten.envelope cells =
          (q.eat input).1.deliver eaten.envelope cells := by
  refine ⟨⟨?_, ?_⟩, ?_, ?_, ?_⟩
  · intro hkeeps e he
    by_contra hatomic
    have hmem : e ∈ es := by rwa [(new_eq_ok_iff.mp h).1] at he
    obtain ⟨input, fault, hfault, hne⟩ :=
      exists_eat_fst_ne (distinct_of_new h) he (hfresh e hmem) hatomic
    exact hne (hkeeps p .start input fault hfault)
  · intro hatomic q hq input fault hfault
    exact eat_fst_of_allAtomic hatomic hq.readers hfault
  · intro q _ input needed available hshort
    exact eat_fst_of_insufficient hshort
  · intro q _ input place hplace
    exact getElem?_eat hplace
  · intro q _ refused input eaten hok
    exact deliver_eat_of_eat refused hok

end Protocol

/-! ### A small system

Two flags, the second one under a signature.
-/

namespace Ferry

/-- A signature with a nonce of one byte and a digest of four. -/
def signature : Signature := ⟨1, 4, [1], .ofSeed 0, Nat.one_pos, by decide, by decide, by decide⟩

/-- The magic of both envelopes is not empty. -/
theorem magic_ne : ([0xAB] : Bytes) ≠ [] := by decide

/-- Both envelopes are sent time and again. -/
theorem sendEvery_ne : (1 : UInt64) ≠ 0 := by decide

/-- One flag in a byte of its own. -/
def flag (cell : String) : Packet := .bits [.flag ⟨⟨cell, true, false⟩, false⟩]

/-- One flag is protected, and the other one is sent in front of it. -/
def mixed : Envelope :=
  { header := ⟨[0xAB], 1, 0, 0, magic_ne, sendEvery_ne⟩
    packets := [flag "lamp", .signature signature [flag "horn"]]
    staged := [none, none] }

/-- Both flags are protected. -/
def guarded : Envelope :=
  { header := ⟨[0xAC], 1, 0, 0, by decide, sendEvery_ne⟩
    packets := [.signature signature [flag "lamp", flag "horn"]]
    staged := [none, none] }

/-- Both flags, still without values. -/
def cells : Cells := (Cells.empty.declare "lamp" .bool).declare "horn" .bool

/-- A wrong digest behind both flags changes nothing. -/
theorem failed_eat_keeps_guarded :
    ∃ p, Protocol.new [guarded] = .ok p ∧
      (p.eat [0xAC, 7, 128, 128, 0, 0, 0, 0]).2 = .error .signatureMismatch ∧
      (p.eat [0xAC, 7, 128, 128, 0, 0, 0, 0]).1 = p := by
  have hfault : ((⟨[guarded]⟩ : Protocol).eat [0xAC, 7, 128, 128, 0, 0, 0, 0]).2 =
      .error .signatureMismatch := by decide +kernel
  have hfresh : ∀ e ∈ [guarded], e.staged = .empty e.leaves := by decide
  have hatomic : ∀ e ∈ [guarded], Packet.AllAtomic e.packets := by
    refine List.forall_mem_singleton.mpr ⟨⟨trivial, ⟨trivial, trivial, ?_⟩, ?_⟩, trivial, ?_⟩
    · exact .inr trivial
    · exact .inr ⟨trivial, trivial⟩
    · exact .inr trivial
  have hkeeps := (Protocol.failed_eat_keeps_iff_allAtomic rfl hfresh).1.mpr hatomic
  exact ⟨⟨[guarded]⟩, rfl, hfault, hkeeps _ .start _ _ hfault⟩

/-- The flag in front of a signature is delivered after the signature was found to be wrong. -/
theorem lamp_staged_before_wrong_digest :
    ∃ p, Protocol.new [mixed] = .ok p ∧
      (p.eat [0xAB, 128, 7, 128, 0, 0, 0, 0]).2 = .error .signatureMismatch ∧
      (p.deliver 0 cells).value? "lamp" = none ∧
      ((p.eat [0xAB, 128, 7, 128, 0, 0, 0, 0]).1.deliver 0 cells).value? "lamp" =
        some (.bool true) :=
  ⟨⟨[mixed]⟩, rfl, by decide +kernel, by decide +kernel, by decide +kernel⟩

end Ferry

end DataLink
