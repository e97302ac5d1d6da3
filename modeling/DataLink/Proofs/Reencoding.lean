import DataLink.Proofs.Emission
import DataLink.Proofs.Padding
import Mathlib.Data.List.Forall2

/-!
# Writing what was read

A leaf that is no float writes the bytes back that it read, whichever they were: each of them is
a value, and each value that was read fits. So a packet without signatures writes its bytes back up
to padding, once the cells hold what was decoded.
-/

namespace DataLink

namespace SignedField

/-- Two's complement in a width is read as a number that fits and that has the same low bits. -/
theorem fits_ofInt {w : IntWidth} {m : Nat} (h : m < 2 ^ w.bits) :
    w.fitsSigned (Int64.ofInt (Int.bmod m (2 ^ w.bits))) = true ∧
      (Int64.ofInt (Int.bmod m (2 ^ w.bits))).toUInt64.toNat % 2 ^ w.bits = m := by
  generalize hn : Int64.ofInt (Int.bmod m (2 ^ w.bits)) = n
  have hcond : n.toInt = if 2 * n.toUInt64.toNat < 2 ^ 64 then (n.toUInt64.toNat : Int)
      else n.toUInt64.toNat - 2 ^ 64 := BitVec.toInt_eq_toNat_cond n.toBitVec
  have hlt : n.toUInt64.toNat < 2 ^ 64 := n.toUInt64.toNat_lt
  have hint : n.toInt = Int.bmod (Int.bmod m (2 ^ w.bits)) (2 ^ 64) := by
    rw [← hn, Int64.toInt_ofInt]
    rfl
  simp only [IntWidth.fitsSigned, Bool.and_eq_true, decide_eq_true_eq]
  rw [Int.bmod_def, Int.bmod_def] at hint
  cases w <;> simp [IntWidth.bits, IntWidth.bytes] at h hint ⊢ <;> omega

/-- A signed field writes the bytes that it read. -/
theorem encode_decode (f : SignedField) {bytes : Bytes} (h : bytes.length = f.width.bytes) :
    f.encode (some (f.decode bytes)) = bytes := by
  have hlt := bytes.toNat_lt
  rw [h, IntWidth.pow_bytes] at hlt
  obtain ⟨hfits, hlow⟩ := fits_ofInt hlt
  have hvalue : f.wireValue (some (f.decode bytes)) =
      Int64.ofInt (Int.bmod bytes.toNat (2 ^ f.width.bits)) := if_pos hfits
  rw [encode, hvalue, ← h]
  apply Bytes.ofNat_of_mod_eq
  rwa [h, IntWidth.pow_bytes]

end SignedField

namespace UnsignedField

/-- An unsigned field writes the bytes that it read. -/
theorem encode_decode (f : UnsignedField) {bytes : Bytes} (h : bytes.length = f.width.bytes) :
    f.encode (some (decode bytes)) = bytes := by
  have hlt := bytes.toNat_lt
  rw [h, IntWidth.pow_bytes] at hlt
  have hword : 2 ^ f.width.bits ≤ 2 ^ 64 := by
    apply Nat.pow_le_pow_right (by omega)
    cases f.width <;> decide
  have hvalue : (UInt64.ofNat bytes.toNat).toNat = bytes.toNat := by
    rw [UInt64.toNat_ofNat', Nat.mod_eq_of_lt (by omega)]
  have hfits : f.width.fitsUnsigned (UInt64.ofNat bytes.toNat) = true := by
    rw [IntWidth.fitsUnsigned, hvalue]
    exact decide_eq_true hlt
  rw [decode, encode, wireValue, if_pos hfits, hvalue, ← h]
  apply Bytes.ofNat_of_mod_eq
  rw [h, IntWidth.pow_bytes, Nat.mod_eq_of_lt hlt]

end UnsignedField

/-- Every wire value of an integer field is a fixed point of reading and writing. -/
theorem Field.encode_decode {f : Field} (hf : f.kind ≠ .float) {bytes : Bytes}
    (h : bytes.length = f.size) : f.encode (f.decode bytes) = bytes := by
  cases f with
  | signed f => exact f.encode_decode h
  | unsigned f => exact f.encode_decode h
  | float f => exact absurd rfl hf

namespace BitSource

/-- Every wire value of a bit source is a fixed point of reading and writing. -/
theorem encode_decode (s : BitSource) {bits : Bits} (h : bits.length = s.bits) :
    s.encode (some (s.decode bits)) = bits := by
  have hlt := bits.toNat_lt
  have hvalue : s.wireValue (some (s.decode bits)) = bits.toNat := by
    cases s with
    | flag s =>
      rw [h] at hlt
      have hbool (n : Nat) (hn : n < 2) : (n != 0).toNat = n := by
        obtain rfl | rfl : n = 0 ∨ n = 1 := by omega
        · rfl
        · rfl
      exact hbool _ hlt
    | digits s =>
      have hbits : bits.length = s.bits := h
      rw [hbits] at hlt
      have hword : 2 ^ s.bits ≤ 2 ^ 64 := Nat.pow_le_pow_right (by omega) s.bits_le
      have hnat : (UInt64.ofNat bits.toNat).toNat = bits.toNat := by
        rw [UInt64.toNat_ofNat', Nat.mod_eq_of_lt (by omega)]
      simp only [decode, wireValue, hnat]
      exact if_pos hlt
  rw [encode, hvalue, ← h, Bits.ofNat_toNat]

/-- Sources that share bytes write the bits back that they read, if their cells hold what was
decoded. -/
theorem flatMap_encode_of_held {sources : List BitSource} {bits : Bits} {cells : Cells}
    (hlong : totalBits sources ≤ bits.length)
    (hheld : (sources.map fun s => cells.value? s.binding.cell) =
      (decodeAll sources bits).map some) :
    (sources.flatMap fun s => s.encode (cells.value? s.binding.cell)) =
      bits.take (totalBits sources) := by
  induction sources generalizing bits with
  | nil => rfl
  | cons s rest ih =>
    rw [totalBits] at hlong ⊢
    rw [decodeAll, List.map_cons, List.map_cons, List.cons.injEq] at hheld
    have hfirst : (bits.take s.bits).length = s.bits := by
      rw [List.length_take]
      omega
    have hrest : totalBits rest ≤ (bits.drop s.bits).length := by
      rw [List.length_drop]
      omega
    rw [List.flatMap_cons, hheld.1, s.encode_decode hfirst, ih hrest hheld.2, List.take_add]

end BitSource

namespace Leaf

/-- A value of the leaf's kind is staged, and it is delivered as it is. -/
def Carries (leaf : Leaf) (staged : Option Value) : Prop :=
  ∃ v, staged = some v ∧ v.kind = leaf.kind ∧ leaf.restore v = v

/-- A field of integers carries what it decodes. -/
theorem carries_field {f : Field} (hf : f.kind ≠ .float) (bytes : Bytes) :
    (field f).Carries (f.decode bytes) := by
  cases f with
  | signed f => exact ⟨_, rfl, rfl, rfl⟩
  | unsigned f => exact ⟨_, rfl, rfl, rfl⟩
  | float f => exact absurd rfl hf

/-- Bit sources carry what they decode. -/
theorem carries_sources (sources : List BitSource) (bits : Bits) :
    List.Forall₂ Carries (sources.map source) ((BitSource.decodeAll sources bits).map some) := by
  induction sources generalizing bits with
  | nil => exact .nil
  | cons s rest ih =>
    refine .cons ⟨_, rfl, ?_, rfl⟩ (ih _)
    cases s <;> rfl

/-- What the leaves' cells hold, leaf by leaf. -/
def held (leaves : List Leaf) (cells : Cells) : Staged :=
  leaves.map fun leaf => cells.value? leaf.binding.cell

end Leaf

namespace Packet

mutual

/-- Neither a signature nor an envelope inside. -/
def Bare : Packet → Prop
  | .field _ => True
  | .bits _ => True
  | .sequence packets => AllBare packets
  | .signature _ _ => False
  | .envelope _ _ => False

/-- Neither a signature nor an envelope inside any of the packets. -/
def AllBare : List Packet → Prop
  | [] => True
  | p :: rest => p.Bare ∧ AllBare rest

end

/-- What was staged comes from these bytes, and emission gives them back: every leaf carries
a value, and cells that hold these values are written as the bytes. -/
structure Inverts (leaves : List Leaf) (staged : Staged) (emit : Cells → Bytes) (bytes : Bytes) :
    Prop where
  carries : List.Forall₂ Leaf.Carries leaves staged
  emits : ∀ cells, Leaf.held leaves cells = staged → emit cells = bytes

/-- Bytes one behind the other are given back one behind the other. -/
theorem Inverts.append {first second : List Leaf} {staged staged' : Staged}
    {emit emit' : Cells → Bytes} {bytes bytes' : Bytes} (h : Inverts first staged emit bytes)
    (h' : Inverts second staged' emit' bytes') :
    Inverts (first ++ second) (staged ++ staged') (fun cells => emit cells ++ emit' cells)
      (bytes ++ bytes') := by
  constructor
  · exact List.rel_append h.carries h'.carries
  · intro cells hheld
    have hlength : (Leaf.held first cells).length = staged.length := by
      rw [Leaf.held, List.length_map, h.carries.length_eq]
    rw [Leaf.held, List.map_append] at hheld
    obtain ⟨hfirst, hsecond⟩ := List.append_inj hheld hlength
    rw [h.emits cells hfirst, h'.emits cells hsecond]

/-- A field of integers gives back the bytes that it read. -/
theorem inverts_field {f : Field} (hf : f.kind ≠ .float) {bytes : Bytes}
    (hlength : bytes.length = f.size) :
    Inverts [.field f] [f.decode bytes] (emit · (field f)) bytes := by
  constructor
  · exact .cons (Leaf.carries_field hf bytes) .nil
  · intro cells hheld
    have hvalue : cells.value? f.binding.cell = f.decode bytes := List.singleton_inj.mp hheld
    rw [emit, hvalue, f.encode_decode hf hlength]

/-- Packed sources give back the bits that they read, with cleared padding. -/
theorem inverts_bits {sources : List BitSource} {bytes : Bytes}
    (hlength : bytes.length = BitSource.totalBytes sources) :
    Inverts (sources.map .source)
      ((BitSource.decodeAll sources (Bits.unpack bytes)).map some) (emit · (bits sources))
      (Bytes.keepBits (BitSource.totalBits sources) bytes) := by
  constructor
  · exact Leaf.carries_sources sources _
  · intro cells hheld
    have hlong : BitSource.totalBits sources ≤ (Bits.unpack bytes).length := by
      rw [Bits.length_unpack, hlength, BitSource.totalBytes]
      omega
    rw [Leaf.held, List.map_map] at hheld
    rw [emit, BitSource.encodeAll, BitSource.flatMap_encode_of_held hlong hheld, ← hlength,
      Bits.pack_take_unpack]

mutual

/-- A packet without signatures and floats writes back what it read, up to padding. -/
theorem inverts_of_decode {n : Nat} : ∀ {p : Packet} {input : Bytes}, p.Bare →
    (∀ leaf ∈ p.leaves, leaf.kind ≠ .float) → (p.decode input).outcome = .ok n →
      Inverts p.leaves (p.decode input).staged (emit · p) (p.unpadded input)
  | .field f, input, _, hkinds, h => by
    have hle := (decode_ok h).2.1
    rw [size] at hle
    have hlength : (input.take f.size).length = f.size := List.length_take_of_le hle
    rw [decode, needing_of_le _ hle]
    exact inverts_field (hkinds (.field f) List.mem_cons_self) hlength
  | .bits sources, input, _, _, h => by
    have hle := (decode_ok h).2.1
    rw [size] at hle
    have hlength := List.length_take_of_le hle
    simp only [decode, needing_of_le _ hle]
    exact inverts_bits hlength
  | .sequence packets, input, hbare, hkinds, h => by
    have hle := (decode_ok h).2.1
    rw [size] at hle
    rw [Bare] at hbare
    rw [leaves] at hkinds
    rw [decode, needing_of_le _ hle] at h ⊢
    exact inverts_of_decodeAll hbare hkinds h

/-- Bare packets without floats give back what they read, with cleared padding. -/
theorem inverts_of_decodeAll {n : Nat} : ∀ {packets : List Packet} {input : Bytes},
    AllBare packets → (∀ leaf ∈ allLeaves packets, leaf.kind ≠ .float) →
    (decodeAll packets input).outcome = .ok n →
      Inverts (allLeaves packets) (decodeAll packets input).staged (emitAll · packets)
        (unpaddedAll packets input)
  | [], _, _, _, _ => ⟨.nil, fun _ _ => rfl⟩
  | p :: rest, input, hbare, hkinds, h => by
    rw [allLeaves, List.forall_mem_append] at hkinds
    cases hfirst : (p.decode input).outcome with
    | error fault =>
      rw [decodeAll_cons_of_error hfirst] at h
      cases h
    | ok k =>
      rw [decodeAll_cons_of_ok hfirst] at h ⊢
      obtain ⟨m, hm, -⟩ := map_ok_iff.mp h
      obtain ⟨rfl, -, -⟩ := decode_ok hfirst
      have hpacket := inverts_of_decode hbare.1 hkinds.1 hfirst
      exact hpacket.append (inverts_of_decodeAll hbare.2 hkinds.2 hm)

end

end Packet

end DataLink
