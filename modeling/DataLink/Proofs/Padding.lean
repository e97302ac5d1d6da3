import DataLink.Packet
import DataLink.Proofs.Numerals

/-!
# Padding

Sources that share bytes may leave some of the last byte's bits unused. Decoding ignores them, and
packing sets them to zero. Everything else on the wire carries something.
-/

namespace DataLink

/-- The bytes with all bits behind the first `width` ones cleared. -/
def Bytes.keepBits : Nat → Bytes → Bytes
  | _, [] => []
  | width, b :: rest =>
    let unit := 2 ^ (8 - width)
    UInt8.ofNat (b.toNat / unit * unit) :: keepBits (width - 8) rest

namespace Packet

mutual

/-- The bytes of a packet with the padding of its bit sources cleared. -/
def unpadded : Packet → Bytes → Bytes
  | .field f, bytes => bytes.take f.size
  | .bits sources, bytes =>
    Bytes.keepBits (BitSource.totalBits sources) (bytes.take (BitSource.totalBytes sources))
  | .sequence packets, bytes => unpaddedAll packets bytes
  | .signature sig packets, bytes =>
    let payload := bytes.drop sig.nonceBytes
    bytes.take sig.nonceBytes ++ unpaddedAll packets payload ++
      (payload.drop (totalSize packets)).take sig.digestBytes
  | .envelope header packets, bytes =>
    bytes.take header.magic.length ++ unpaddedAll packets (bytes.drop header.magic.length)

/-- The bytes of packets in sequence with all padding cleared. -/
def unpaddedAll : List Packet → Bytes → Bytes
  | [], _ => []
  | p :: rest, bytes => p.unpadded bytes ++ unpaddedAll rest (bytes.drop p.size)

end

end Packet

namespace Bits

/-- Zeros behind the bits multiply what they spell. -/
theorem toNat_append_zeros (bits : Bits) (count : Nat) :
    toNat (bits ++ List.replicate count false) = toNat bits * 2 ^ count := by
  induction count with
  | zero => simp
  | succ count ih =>
    rw [List.replicate_succ', ← List.append_assoc, toNat, List.foldl_append, ← toNat, ih]
    rw [List.foldl_cons, List.foldl_nil, Bool.toNat_false, Nat.add_zero, Nat.mul_comm 2,
      Nat.mul_assoc, Nat.pow_succ]

/-- The leading bits spell what is left of a number without its low bits. -/
theorem take_ofNat {width places : Nat} (h : width ≤ places) (n : Nat) :
    (ofNat places n).take width = ofNat width (n / 2 ^ (places - width)) := by
  induction width generalizing places with
  | zero => rfl
  | succ width ih =>
    obtain ⟨places, rfl⟩ : ∃ fewer, places = fewer + 1 := ⟨places - 1, by omega⟩
    have hplace : places - width + width = places := by omega
    rw [ofNat, List.take_succ_cons, ih (by omega), ofNat, Nat.add_sub_add_right,
      Nat.testBit_div_two_pow, Nat.add_comm, hplace]

/-- A byte has eight bits. -/
theorem length_ofByte (b : UInt8) : (ofByte b).length = 8 := length_ofNat 8 _

/-- The first bits of a byte spell what is left of it after a division. -/
theorem toNat_take_ofByte (width : Nat) (b : UInt8) :
    toNat ((ofByte b).take width) = b.toNat / 2 ^ (8 - width) := by
  have hbyte : b.toNat < 2 ^ 8 := b.toNat_lt
  by_cases hwidth : width ≤ 8
  · have hlt : b.toNat / 2 ^ (8 - width) < 2 ^ width := by
      rw [Nat.div_lt_iff_lt_mul (Nat.two_pow_pos _), ← Nat.pow_add]
      rwa [Nat.add_sub_cancel' hwidth]
    rw [ofByte, take_ofNat hwidth, toNat_ofNat, Nat.mod_eq_of_lt hlt]
  · have hzero : 8 - width = 0 := by omega
    rw [List.take_of_length_le (by rw [length_ofByte]; omega), ofByte, toNat_ofNat,
      Nat.mod_eq_of_lt hbyte, hzero, Nat.pow_zero, Nat.div_one]

/-- Packing the leading bits of bytes keeps these bits and clears the others. -/
theorem pack_take_unpack (width : Nat) (bytes : Bytes) :
    pack bytes.length ((unpack bytes).take width) = Bytes.keepBits width bytes := by
  induction bytes generalizing width with
  | nil => rfl
  | cons b rest ih =>
    have hlength := length_ofByte b
    have hfirst : ((ofByte b ++ unpack rest).take width).take 8 = (ofByte b).take width := by
      rw [List.take_take, Nat.min_comm, ← List.take_take, List.take_left' hlength]
    have hrest : ((ofByte b ++ unpack rest).take width).drop 8 =
        (unpack rest).take (width - 8) := by
      rw [List.drop_take, List.drop_left' hlength]
    have hzeros : 8 - ((ofByte b ++ unpack rest).take width).length = 8 - width := by
      rw [List.length_take, List.length_append, hlength]
      omega
    have hunpack : unpack (b :: rest) = ofByte b ++ unpack rest := List.flatMap_cons
    rw [hunpack, List.length_cons, pack, hfirst, hrest, hzeros, toNat_append_zeros,
      toNat_take_ofByte, ih]
    rfl

example : Bytes.keepBits 12 [0xFF, 0xFF] = [0xFF, 0xF0] := by decide

/-- Every byte is unpacked into eight bits. -/
theorem length_unpack (bytes : Bytes) : (unpack bytes).length = 8 * bytes.length := by
  induction bytes with
  | nil => rfl
  | cons b rest ih =>
    rw [unpack] at ih ⊢
    rw [List.flatMap_cons, List.length_append, length_ofByte, ih, List.length_cons]
    omega

end Bits

end DataLink
