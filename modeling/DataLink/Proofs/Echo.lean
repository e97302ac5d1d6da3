import DataLink.Packet
import DataLink.Proofs.Narrowing
import DataLink.Proofs.Numerals

/-!
# What arrives of a value

What a leaf writes to the wire it reads back as a known value, whatever the cell holds.
Integers and booleans arrive as they are if they fit, otherwise the substitute for nil arrives.
Of floats the number arrives that is nearest to them without the offset, or nil.
-/

namespace DataLink

/-- The number that arrives when the cell's value was sent. -/
def SignedField.echo (f : SignedField) : Option Value → Int64
  | some (.signed n) => if f.width.fitsSigned n then n else f.valueIfNil
  | _ => f.valueIfNil

/-- The number that arrives when the cell's value was sent. -/
def UnsignedField.echo (f : UnsignedField) : Option Value → UInt64
  | some (.unsigned n) => if f.width.fitsUnsigned n then n else f.valueIfNil
  | _ => f.valueIfNil

/-- The number that arrives when the cell's value was sent, without the offset. None stands for
nil. -/
noncomputable def FloatField.echo (f : FloatField) (value : Option Value) : Option Binary64 :=
  Classical.choose (f.existsUnique_sends value).exists

/-- The boolean that arrives when the cell's value was sent. -/
def Flag.echo (s : Flag) : Option Value → Bool
  | some (.bool b) => b
  | _ => s.valueIfNil

/-- The number that arrives when the cell's value was sent. -/
def Digits.echo (s : Digits) : Option Value → UInt64
  | some (.unsigned n) => if n.toNat < Nat.pow 2 s.bits then n else s.valueIfNil
  | _ => s.valueIfNil

/-- What is staged for a leaf when the cell's value was sent. -/
noncomputable def Leaf.echo : Leaf → Option Value → Option Value
  | .field (.signed f), value => some (.signed (f.echo value))
  | .field (.unsigned f), value => some (.unsigned (f.echo value))
  | .field (.float f), value => (f.echo value).map .float
  | .source (.flag s), value => some (.bool (s.echo value))
  | .source (.digits s), value => some (.unsigned (s.echo value))

/-- The bytes of a width tell as many numbers apart as its bits. -/
theorem IntWidth.pow_bytes (w : IntWidth) : 256 ^ w.bytes = 2 ^ w.bits := by
  rw [bits, Nat.pow_mul]

namespace SignedField

/-- What a signed field sends is the value that arrives. -/
theorem wireValue_eq (f : SignedField) (value : Option Value) : f.wireValue value = f.echo value := by
  cases value with
  | none => rfl
  | some v => cases v <;> rfl

/-- The value of a signed field that arrives fits its width. -/
theorem fits_echo (f : SignedField) (value : Option Value) :
    f.width.fitsSigned (f.echo value) = true := by
  unfold echo
  split
  · split
    · assumption
    · exact f.fits
  · exact f.fits

/-- Two's complement in a width gives back what fits. -/
theorem ofInt_bmod {w : IntWidth} {n : Int64} (h : w.fitsSigned n = true) :
    Int64.ofInt (Int.bmod (n.toUInt64.toNat % 2 ^ w.bits : Nat) (2 ^ w.bits)) = n := by
  have hcond : n.toInt = if 2 * n.toUInt64.toNat < 2 ^ 64 then (n.toUInt64.toNat : Int)
      else n.toUInt64.toNat - 2 ^ 64 := BitVec.toInt_eq_toNat_cond n.toBitVec
  have hlt : n.toUInt64.toNat < 2 ^ 64 := n.toUInt64.toNat_lt
  have hbmod : Int.bmod (n.toUInt64.toNat % 2 ^ w.bits : Nat) (2 ^ w.bits) = n.toInt := by
    simp only [IntWidth.fitsSigned, Bool.and_eq_true, decide_eq_true_eq] at h
    rw [Int.bmod_def]
    cases w <;> simp [IntWidth.bits, IntWidth.bytes] at h ⊢ <;> omega
  rw [hbmod, Int64.ofInt_toInt]

/-- Decoding what a signed field encodes gives the value that arrives. -/
theorem decode_encode (f : SignedField) (value : Option Value) :
    f.decode (f.encode value) = .signed (f.echo value) := by
  rw [decode, encode, wireValue_eq, Bytes.toNat_ofNat, IntWidth.pow_bytes]
  exact congrArg Value.signed (ofInt_bmod (f.fits_echo value))

end SignedField

namespace UnsignedField

/-- What an unsigned field sends is the value that arrives. -/
theorem wireValue_eq (f : UnsignedField) (value : Option Value) :
    f.wireValue value = f.echo value := by
  cases value with
  | none => rfl
  | some v => cases v <;> rfl

/-- The value of an unsigned field that arrives fits its width. -/
theorem fits_echo (f : UnsignedField) (value : Option Value) :
    f.width.fitsUnsigned (f.echo value) = true := by
  unfold echo
  split
  · split
    · assumption
    · exact f.fits
  · exact f.fits

/-- Decoding what an unsigned field encodes gives the value that arrives. -/
theorem decode_encode (f : UnsignedField) (value : Option Value) :
    decode (f.encode value) = .unsigned (f.echo value) := by
  have hlt : (f.echo value).toNat < 2 ^ f.width.bits := of_decide_eq_true (f.fits_echo value)
  rw [decode, encode, wireValue_eq, Bytes.toNat_ofNat, IntWidth.pow_bytes, Nat.mod_eq_of_lt hlt,
    UInt64.ofNat_toNat]

end UnsignedField

namespace FloatField

variable {f g : FloatField} {value : Option Value} {number : Option Binary64}

/-- What arrives is what is sent. -/
theorem sends_echo (f : FloatField) (value : Option Value) : f.Sends value (f.echo value) :=
  Classical.choose_spec (f.existsUnique_sends value).exists

/-- Whatever is found to be sent arrives. -/
theorem Sends.echo_eq (h : f.Sends value number) : f.echo value = number :=
  (f.sends_echo value).unique h

/-- Decoding what a float field encodes gives the value that arrives. -/
theorem decode_encode (f : FloatField) (value : Option Value) :
    f.decode (f.encode value) = (f.echo value).map .float := (f.sends_echo value).decode_encode

/-- Fields of one width and one offset are alike in what arrives. -/
theorem echo_congr (hwidth : g.width = f.width) (hoffset : g.offset = f.offset) :
    g.echo = f.echo := by
  funext value
  exact ((f.sends_echo value).congr hwidth hoffset).echo_eq

end FloatField

namespace Field

/-- Every value is encoded in as many bytes as the field has. -/
theorem length_encode (f : Field) (value : Option Value) : (f.encode value).length = f.size := by
  cases f <;> exact Bytes.length_ofNat _ _

/-- Decoding what a field encodes gives the value that arrives. -/
theorem decode_encode (f : Field) (value : Option Value) :
    f.decode (f.encode value) = (Leaf.field f).echo value := by
  cases f with
  | signed f => exact congrArg some (f.decode_encode value)
  | unsigned f => exact congrArg some (f.decode_encode value)
  | float f => exact f.decode_encode value

end Field

/-- A flag sends one bit, which tells the value that arrives. -/
theorem Flag.wireValue_eq (s : Flag) (value : Option Value) :
    (BitSource.flag s).wireValue value = (s.echo value).toNat := by
  cases value with
  | none => rfl
  | some v => cases v <;> rfl

namespace Digits

/-- The number that arrives fits the bits it has. -/
theorem fits_echo (s : Digits) (value : Option Value) : (s.echo value).toNat < 2 ^ s.bits := by
  unfold echo
  split
  · split
    · assumption
    · exact s.fits
  · exact s.fits

/-- What a number of bits sends is the value that arrives. -/
theorem wireValue_eq (s : Digits) (value : Option Value) :
    (BitSource.digits s).wireValue value = (s.echo value).toNat := by
  cases value with
  | none => rfl
  | some v =>
    cases v with
    | unsigned n => exact (apply_ite UInt64.toNat _ _ _).symm
    | bool b => rfl
    | signed n => rfl
    | float x => rfl

end Digits

namespace BitSource

/-- Decoding the bits that a source encodes gives the value that arrives. -/
theorem decode_encode (s : BitSource) (value : Option Value) :
    some (s.decode (s.encode value)) = (Leaf.source s).echo value := by
  cases s with
  | flag s =>
    have hone : (s.echo value).toNat % 2 ^ 1 = (s.echo value).toNat :=
      Nat.mod_eq_of_lt (Nat.lt_succ_of_le (Bool.toNat_le _))
    have hbool (b : Bool) : (b.toNat != 0) = b := by cases b <;> rfl
    rw [encode, decode, Bits.toNat_ofNat, s.wireValue_eq, bits, hone, hbool]
    rfl
  | digits s =>
    rw [encode, decode, Bits.toNat_ofNat, s.wireValue_eq, bits, Nat.mod_eq_of_lt (s.fits_echo value),
      UInt64.ofNat_toNat]
    rfl

/-- Every value is encoded in as many bits as the source has. -/
theorem length_encode (s : BitSource) (value : Option Value) :
    (s.encode value).length = s.bits := Bits.length_ofNat _ _

/-- Sources one after the other take as many bits as they take together. -/
theorem length_flatMap_encode (sources : List BitSource) (cells : Cells) :
    (sources.flatMap fun s => s.encode (cells.value? s.binding.cell)).length =
      totalBits sources := by
  induction sources with
  | nil => rfl
  | cons s rest ih => rw [List.flatMap_cons, List.length_append, ih, length_encode, totalBits]

/-- Sources that share bytes are read one by one, and what fills the last byte is ignored. -/
theorem decodeAll_flatMap_encode (sources : List BitSource) (cells : Cells) (filling : Bits) :
    (decodeAll sources
        ((sources.flatMap fun s => s.encode (cells.value? s.binding.cell)) ++ filling)).map some =
      sources.map fun s => (Leaf.source s).echo (cells.value? s.binding.cell) := by
  induction sources with
  | nil => rfl
  | cons s rest ih =>
    have hlength := s.length_encode (cells.value? s.binding.cell)
    rw [List.flatMap_cons, List.append_assoc, decodeAll, List.take_left' hlength,
      List.drop_left' hlength, List.map_cons, List.map_cons, decode_encode, ih]

/-- Every source finds its own bits among those that were packed together. -/
theorem decodeAll_encodeAll (sources : List BitSource) (cells : Cells) :
    (decodeAll sources (Bits.unpack (encodeAll sources cells))).map some =
      sources.map fun s => (Leaf.source s).echo (cells.value? s.binding.cell) := by
  have hbits := length_flatMap_encode sources cells
  rw [encodeAll, Bits.unpack_pack (by rw [hbits, totalBytes]; omega), decodeAll_flatMap_encode]

/-- Packed bits fill up whole bytes. -/
theorem length_encodeAll (sources : List BitSource) (cells : Cells) :
    (encodeAll sources cells).length = totalBytes sources := Bits.length_pack _ _

end BitSource

end DataLink
