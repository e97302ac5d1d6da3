import DataLink.Packet.Bits
import Mathlib.Algebra.Order.Ring.Int

/-!
# Numbers on the wire

Naturals are written in bytes, least significant first, or in bits, most significant first.
Reading gives the number back modulo the width, and so exactly if it fits. Sources of bits
that share bytes are told apart by their widths alone.
-/

namespace DataLink

namespace Bytes

/-- Bytes of a number spell it modulo what they can hold. -/
theorem toNat_ofNat (count n : Nat) : toNat (ofNat count n) = n % 256 ^ count := by
  induction count generalizing n with
  | zero => simp [ofNat, toNat, Nat.mod_one]
  | succ count ih =>
    have hbyte : (UInt8.ofNat n).toNat = n % 256 := UInt8.toNat_ofNat'
    rw [ofNat, toNat, hbyte, ih, Nat.pow_succ', Nat.mod_mul]

/-- Bytes spell a number below the power of 256 for their count. -/
theorem toNat_lt (bytes : Bytes) : toNat bytes < 256 ^ bytes.length := by
  induction bytes with
  | nil => exact Nat.one_pos
  | cons b rest ih =>
    have hbyte : b.toNat < 256 := b.toNat_lt
    rw [toNat, List.length_cons, Nat.pow_succ]
    omega

/-- Writing what was read gives the bytes back, also from a number that agrees with it modulo the
width. -/
theorem ofNat_of_mod_eq {bytes : Bytes} {n : Nat} (h : n % 256 ^ bytes.length = toNat bytes) :
    ofNat bytes.length n = bytes := by
  induction bytes generalizing n with
  | nil => rfl
  | cons b rest ih =>
    have hbyte : b.toNat < 256 := b.toNat_lt
    rw [List.length_cons, Nat.pow_succ', Nat.mod_mul, toNat] at h
    have hfirst : UInt8.ofNat n = b := by
      apply UInt8.toNat_inj.mp
      rw [UInt8.toNat_ofNat']
      omega
    have hothers : n / 256 % 256 ^ rest.length = toNat rest := by omega
    rw [List.length_cons, ofNat, hfirst, ih hothers]

end Bytes

namespace Bits

/-- A number is written in as many bytes as are asked for. -/
@[simp] theorem length_ofNat (width n : Nat) : (ofNat width n).length = width := by
  induction width with
  | zero => rfl
  | succ width ih => rw [ofNat, List.length_cons, ih]

/-- Accumulator form of reading. -/
theorem foldl_toNat (bits : Bits) (start : Nat) :
    bits.foldl (fun n b => 2 * n + b.toNat) start = 2 ^ bits.length * start + toNat bits := by
  induction bits generalizing start with
  | nil => simp [toNat]
  | cons b bits ih =>
    simp only [List.foldl_cons, toNat, List.length_cons] at ih ⊢
    rw [ih (2 * start + b.toNat), ih (2 * 0 + b.toNat), Nat.mul_add, Nat.pow_succ, Nat.mul_assoc]
    simp only [Nat.mul_zero, Nat.zero_add, Nat.add_assoc]

/-- The first bit is the most significant one. -/
theorem toNat_cons (b : Bool) (bits : Bits) :
    toNat (b :: bits) = 2 ^ bits.length * b.toNat + toNat bits := by
  rw [toNat, List.foldl_cons, foldl_toNat, Nat.mul_zero, Nat.zero_add]

/-- Bits spell a number below the power of two for their count. -/
theorem toNat_lt (bits : Bits) : toNat bits < 2 ^ bits.length := by
  induction bits with
  | nil => exact Nat.one_pos
  | cons b bits ih =>
    have hbit : 2 ^ bits.length * b.toNat ≤ 2 ^ bits.length * 1 :=
      Nat.mul_le_mul_left _ (Bool.toNat_le b)
    rw [toNat_cons, List.length_cons, Nat.pow_succ]
    omega

/-- Reading what was written gives the number modulo the width. -/
theorem toNat_ofNat (width n : Nat) : toNat (ofNat width n) = n % 2 ^ width := by
  induction width with
  | zero => simp [ofNat, toNat, Nat.mod_one]
  | succ width ih =>
    rw [ofNat, toNat_cons, length_ofNat, ih, Nat.toNat_testBit, Nat.pow_succ, Nat.mod_mul,
      Nat.add_comm]

/-- Only the low bits are written. -/
theorem ofNat_add {width places : Nat} (hle : width ≤ places) (high : Nat) {low : Nat}
    (hlow : low < 2 ^ places) : ofNat width (2 ^ places * high + low) = ofNat width low := by
  induction width with
  | zero => rfl
  | succ width ih =>
    rw [ofNat, ofNat, ih (by omega), Nat.testBit_two_pow_mul_add _ hlow, if_pos (by omega)]

/-- Writing what was read gives the bits back. -/
theorem ofNat_toNat (bits : Bits) : ofNat bits.length (toNat bits) = bits := by
  induction bits with
  | nil => rfl
  | cons b bits ih =>
    have hlow := toNat_lt bits
    rw [List.length_cons, ofNat, toNat_cons, ofNat_add (Nat.le_refl _) _ hlow, ih,
      Nat.testBit_two_pow_mul_add _ hlow, if_neg (by omega), Nat.sub_self]
    cases b <;> rfl

/-- A byte made of eight bits has these bits. -/
theorem ofByte_toNat {bits : Bits} (h : bits.length = 8) :
    ofByte (UInt8.ofNat (toNat bits)) = bits := by
  have hlt := toNat_lt bits
  have hbyte : (UInt8.ofNat (toNat bits)).toNat = toNat bits := by
    rw [UInt8.toNat_ofNat', Nat.mod_eq_of_lt]
    rwa [h] at hlt
  rw [ofByte, hbyte, ← h, ofNat_toNat]

/-- Bits are packed into as many bytes as are asked for. -/
theorem length_pack (count : Nat) (bits : Bits) : (pack count bits).length = count := by
  induction count generalizing bits with
  | zero => rfl
  | succ count ih => rw [pack, List.length_cons, ih]

/-- Unpacking gives the bits back, followed by the zeros that filled the last byte. -/
theorem unpack_pack {count : Nat} {bits : Bits} (h : bits.length ≤ 8 * count) :
    unpack (pack count bits) = bits ++ List.replicate (8 * count - bits.length) false := by
  induction count generalizing bits with
  | zero =>
    obtain rfl : bits = [] := List.length_eq_zero_iff.mp (by omega)
    rfl
  | succ count ih =>
    have hbyte : (bits.take 8 ++ List.replicate (8 - bits.length) false).length = 8 := by
      rw [List.length_append, List.length_take, List.length_replicate]
      omega
    have hrest : (bits.drop 8).length ≤ 8 * count := by
      rw [List.length_drop]
      omega
    have hunpack := ih hrest
    rw [unpack] at hunpack ⊢
    rw [pack, List.flatMap_cons, ofByte_toNat hbyte, hunpack, List.length_drop]
    rcases Nat.lt_or_ge bits.length 8 with hlt | hge
    · rw [List.take_of_length_le (by omega), List.drop_of_length_le (by omega), List.nil_append,
        List.append_assoc, List.replicate_append_replicate]
      congr 2
      omega
    · have hzero : 8 - bits.length = 0 := by omega
      rw [hzero, List.replicate_zero, List.append_nil, ← List.append_assoc, List.take_append_drop]
      congr 2
      omega

end Bits

end DataLink
