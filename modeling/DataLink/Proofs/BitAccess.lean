import DataLink.Proofs.Access
import DataLink.Proofs.Padding

/-!
# Bits in bounds

Bit sources are packed into bytes that are zero at first, by setting one bit after another, and
they are read back bit by bit. A place among the bits is a byte and a place in it. Setting the bits
in order packs them, and reading them in order unpacks them, as long as the bytes have room.
-/

namespace DataLink

namespace Bits

/-! ### Single bits of packed bytes -/

/-- The bits of a number stand in the order of their weights, the greatest one first. -/
theorem getElem?_ofNat {width place : Nat} (h : place < width) (n : Nat) :
    (ofNat width n)[place]? = some (n.testBit (width - 1 - place)) := by
  induction width generalizing place with
  | zero => omega
  | succ width ih =>
    cases place with
    | zero => rfl
    | succ place =>
      have hplace : width - 1 - place = width + 1 - 1 - (place + 1) := by omega
      rw [ofNat, List.getElem?_cons_succ, ih (by omega), hplace]

/-- A bit of unpacked bytes is a bit of one byte. -/
theorem getElem?_unpack (packed : Bytes) (place : Nat) :
    (unpack packed)[place]? =
      packed[place / 8]?.map fun byte => byte.toNat.testBit (7 - place % 8) := by
  induction packed generalizing place with
  | nil => rfl
  | cons byte rest ih =>
    have hunpack : unpack (byte :: rest) = ofByte byte ++ unpack rest := List.flatMap_cons
    have hlength := length_ofByte byte
    rw [hunpack]
    by_cases hplace : place < 8
    · have hbyte : place / 8 = 0 := by omega
      have hbit : 8 - 1 - place = 7 - place % 8 := by omega
      rw [List.getElem?_append_left (by omega), hbyte, ofByte, getElem?_ofNat hplace, hbit]
      rfl
    · have hbyte : place / 8 = (place - 8) / 8 + 1 := by omega
      have hbit : (place - 8) % 8 = place % 8 := by omega
      rw [List.getElem?_append_right (by omega), hlength, ih, hbyte, hbit,
        List.getElem?_cons_succ]

/-- Without bits all bytes are zero. -/
theorem pack_nil (count : Nat) : pack count [] = List.replicate count 0 := by
  induction count with
  | zero => rfl
  | succ count ih =>
    rw [pack, List.drop_nil, ih, List.replicate_succ]
    rfl

/-- The first of packed bytes, for the bits that stand in it. -/
def firstByte (bits : Bits) : UInt8 :=
  UInt8.ofNat (toNat (bits.take 8 ++ List.replicate (8 - bits.length) false))

/-- The first byte holds the first eight bits, the others what follows. -/
theorem pack_succ (count : Nat) (bits : Bits) :
    pack (count + 1) bits = firstByte bits :: pack count (bits.drop 8) := rfl

/-- A bit at the end counts once and doubles the others. -/
theorem toNat_concat (bits : Bits) (b : Bool) : toNat (bits ++ [b]) = 2 * toNat bits + b.toNat := by
  rw [toNat, List.foldl_append, ← toNat, List.foldl_cons, List.foldl_nil]

/-- The bit of a byte at a place, counted from the most significant one. -/
def mask (place : Nat) : UInt8 := 0x80 >>> UInt8.ofNat (place % 8)

/-- A mask has the weight of its place in the byte. -/
theorem toNat_mask {place : Nat} (h : place < 8) : (mask place).toNat = 2 ^ (7 - place) := by
  have hall : ∀ place < 8, (mask place).toNat = 2 ^ (7 - place) := by decide
  exact hall place h

/-- Masks repeat from byte to byte. -/
theorem mask_add_eight (place : Nat) : mask (place + 8) = mask place := by
  rw [mask, Nat.add_mod_right, mask]

/-- One more bit of the first byte is set in it, or leaves it as it is. -/
theorem firstByte_concat {bits : Bits} (h : bits.length < 8) (b : Bool) :
    firstByte (bits ++ [b]) = if b then firstByte bits ||| mask bits.length else firstByte bits := by
  obtain ⟨left, hleft⟩ : ∃ left, bits.length + left = 7 := ⟨7 - bits.length, by omega⟩
  have hall : (bits ++ [b]).take 8 = bits ++ [b] :=
    List.take_of_length_le (by rw [List.length_append, List.length_singleton]; omega)
  have hzeros : 8 - (bits ++ [b]).length = left := by
    rw [List.length_append, List.length_singleton]
    omega
  have hbefore : toNat (bits.take 8 ++ List.replicate (8 - bits.length) false) =
      2 ^ (left + 1) * toNat bits := by
    have hroom : 8 - bits.length = left + 1 := by omega
    rw [List.take_of_length_le (by omega), hroom, toNat_append_zeros, Nat.mul_comm]
  have hafter : toNat ((bits ++ [b]).take 8 ++ List.replicate (8 - (bits ++ [b]).length) false) =
      2 ^ (left + 1) * toNat bits + 2 ^ left * b.toNat := by
    have hdouble : 2 * toNat bits * 2 ^ left = 2 ^ (left + 1) * toNat bits := by
      rw [Nat.mul_comm, Nat.pow_succ, Nat.mul_assoc]
    rw [hall, hzeros, toNat_append_zeros, toNat_concat, Nat.add_mul, hdouble,
      Nat.mul_comm b.toNat]
  rw [firstByte, firstByte, hafter, hbefore]
  cases b with
  | false => rw [Bool.toNat_false, Nat.mul_zero, Nat.add_zero]; rfl
  | true =>
    have hlow : 2 ^ left < 2 ^ (left + 1) := Nat.pow_lt_pow_right (by omega) (by omega)
    have hlt : 2 ^ (left + 1) * toNat bits + 2 ^ left < 256 := by
      have hbits := toNat_lt ((bits ++ [true]) ++ List.replicate left false)
      have hlength : ((bits ++ [true]) ++ List.replicate left false).length = 8 := by
        rw [List.length_append, List.length_append, List.length_singleton, List.length_replicate]
        omega
      rw [hall, hzeros, Bool.toNat_true, Nat.mul_one] at hafter
      rwa [hafter, hlength] at hbits
    have hmask : (mask bits.length).toNat = 2 ^ left := by
      rw [toNat_mask h]
      congr 1
      omega
    apply UInt8.toNat_inj.mp
    rw [Bool.toNat_true, Nat.mul_one, if_pos rfl, UInt8.toNat_or, hmask, UInt8.toNat_ofNat',
      UInt8.toNat_ofNat', Nat.mod_eq_of_lt hlt, Nat.mod_eq_of_lt (by omega),
      Nat.two_pow_add_eq_or_of_lt hlow]

/-- Packing one more bit sets it in its byte, if it is one. -/
theorem pack_concat {count : Nat} {bits : Bits} (h : bits.length < 8 * count) (b : Bool) :
    pack count (bits ++ [b]) =
      if b then (pack count bits).modify (bits.length / 8) (· ||| mask bits.length)
      else pack count bits := by
  induction count generalizing bits with
  | zero => omega
  | succ count ih =>
    have hconcat : (bits ++ [b]).length = bits.length + 1 := List.length_append
    rw [pack_succ, pack_succ]
    by_cases hfirst : bits.length < 8
    · have hnone : (bits ++ [b]).drop 8 = bits.drop 8 := by
        rw [List.drop_eq_nil_of_le (Nat.le_of_lt hfirst), List.drop_eq_nil_of_le (by omega)]
      have hbyte : bits.length / 8 = 0 := by omega
      rw [hnone, firstByte_concat hfirst, hbyte]
      cases b <;> rfl
    · have hsame : firstByte (bits ++ [b]) = firstByte bits := by
        have hzeros : 8 - (bits ++ [b]).length = 8 - bits.length := by omega
        rw [firstByte, firstByte, hzeros, List.take_append_of_le_length (by omega)]
      have hdrop : (bits ++ [b]).drop 8 = bits.drop 8 ++ [b] :=
        List.drop_append_of_le_length (by omega)
      have hlength : (bits.drop 8).length = bits.length - 8 := List.length_drop
      have hbyte : bits.length / 8 = (bits.length - 8) / 8 + 1 := by omega
      have hmask : mask bits.length = mask (bits.length - 8) := by
        have hsame := mask_add_eight (bits.length - 8)
        rwa [Nat.sub_add_cancel (by omega)] at hsame
      rw [hsame, hdrop, ih (by omega), hlength, hbyte, hmask]
      cases b <;> rfl

/-! ### Bit by bit -/

/-- Sets those of some bits that are one, from a place on. -/
def put (packed : Bytes) : Nat → Bits → Checked Bytes
  | _, [] => .ok packed
  | place, true :: rest => do
    let packed ← Checked.modify packed (place / 8) (· ||| mask place)
    put packed (place + 1) rest
  | place, false :: rest => put packed (place + 1) rest

/-- Putting bits behind others packs them all. -/
theorem put_pack {count : Nat} {bits more : Bits} (h : bits.length + more.length ≤ 8 * count) :
    put (pack count bits) bits.length more = .ok (pack count (bits ++ more)) := by
  induction more generalizing bits with
  | nil => rw [put, List.append_nil]
  | cons b rest ih =>
    rw [List.length_cons] at h
    have hroom : bits.length < 8 * count := by omega
    have hconcat := pack_concat hroom b
    have hothers := @ih (bits ++ [b]) (by
      rw [List.length_append, List.length_singleton]
      omega)
    rw [List.length_append, List.length_singleton, List.append_assoc, List.singleton_append]
      at hothers
    cases b with
    | false =>
      rw [put, ← hothers, hconcat]
      rfl
    | true =>
      have hbyte : bits.length / 8 < (pack count bits).length := by
        rw [length_pack]
        omega
      rw [put, Checked.modify_of_lt hbyte, Checked.ok_bind, ← hothers, hconcat]
      rfl

/-- So many bits from a place on. -/
def get (packed : Bytes) : Nat → Nat → Checked Bits
  | _, 0 => .ok []
  | place, width + 1 => do
    let byte ← Checked.get packed (place / 8)
    let rest ← get packed (place + 1) width
    .ok (byte.toNat.testBit (7 - place % 8) :: rest)

/-- Getting bits one by one unpacks them. -/
theorem get_eq {packed : Bytes} {place width : Nat} (h : place + width ≤ 8 * packed.length) :
    get packed place width = .ok (((unpack packed).drop place).take width) := by
  induction width generalizing place with
  | zero => rw [get, List.take_zero]
  | succ width ih =>
    have hlength := length_unpack packed
    have hplace : place < (unpack packed).length := by omega
    have hbit := getElem?_unpack packed place
    rw [List.getElem?_eq_getElem hplace] at hbit
    obtain ⟨byte, hbyte, hbit⟩ := Option.map_eq_some_iff.mp hbit.symm
    rw [get, Checked.get_of_some hbyte, Checked.ok_bind, ih (by omega), Checked.ok_bind, hbit,
      List.drop_eq_getElem_cons hplace, List.take_succ_cons]

end Bits

namespace BitSource

/-- Puts the bits of sources one source after another, from a place on. -/
def putAll (cells : Cells) : List BitSource → Bytes → Nat → Checked Bytes
  | [], packed, _ => .ok packed
  | s :: rest, packed, place => do
    let packed ← Bits.put packed place (s.encode (cells.value? s.binding.cell))
    putAll cells rest packed (place + s.bits)

/-- Putting sources behind the bits that are there packs all of them. -/
theorem putAll_pack (cells : Cells) {count : Nat} {sources : List BitSource} {bits : Bits}
    (h : bits.length + totalBits sources ≤ 8 * count) :
    putAll cells sources (Bits.pack count bits) bits.length =
      .ok (Bits.pack count
        (bits ++ sources.flatMap fun s => s.encode (cells.value? s.binding.cell))) := by
  induction sources generalizing bits with
  | nil => rw [putAll, List.flatMap_nil, List.append_nil]
  | cons s rest ih =>
    rw [totalBits] at h
    have hlength : (s.encode (cells.value? s.binding.cell)).length = s.bits :=
      Bits.length_ofNat _ _
    have hothers := @ih (bits ++ s.encode (cells.value? s.binding.cell)) (by
      rw [List.length_append, hlength]
      omega)
    rw [List.length_append, hlength, List.append_assoc] at hothers
    rw [putAll, Bits.put_pack (by omega), Checked.ok_bind, hothers, List.flatMap_cons]

/-- Encodes sources into bytes that are zero at first. -/
def encodeAllChecked (sources : List BitSource) (cells : Cells) : Checked Bytes :=
  putAll cells sources (List.replicate (totalBytes sources) 0) 0

/-- The bytes have room for all bits. -/
theorem totalBits_le (sources : List BitSource) : totalBits sources ≤ 8 * totalBytes sources := by
  rw [totalBytes]
  omega

/-- Encoding sources touches no byte outside their own. -/
theorem encodeAllChecked_eq (sources : List BitSource) (cells : Cells) :
    encodeAllChecked sources cells = .ok (encodeAll sources cells) := by
  have hroom : ([] : Bits).length + totalBits sources ≤ 8 * totalBytes sources := by
    rw [List.length_nil, Nat.zero_add]
    exact totalBits_le sources
  rw [encodeAllChecked, ← Bits.pack_nil]
  exact putAll_pack cells hroom

/-- Gets the values of sources one after another, from a place on. -/
def getAll : List BitSource → Bytes → Nat → Checked (List Value)
  | [], _, _ => .ok []
  | s :: rest, packed, place => do
    let bits ← Bits.get packed place s.bits
    let values ← getAll rest packed (place + s.bits)
    .ok (s.decode bits :: values)

/-- Reading sources that lie within the bytes touches none outside them. -/
theorem getAll_eq {sources : List BitSource} {packed : Bytes} {place : Nat}
    (h : place + totalBits sources ≤ 8 * packed.length) :
    getAll sources packed place = .ok (decodeAll sources ((Bits.unpack packed).drop place)) := by
  induction sources generalizing place with
  | nil => rfl
  | cons s rest ih =>
    rw [totalBits] at h
    rw [getAll, Bits.get_eq (by omega), Checked.ok_bind, ih (by omega), Checked.ok_bind, decodeAll,
      List.drop_drop]

end BitSource

end DataLink
