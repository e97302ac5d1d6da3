import DataLink.Packet.Field

/-!
# Bit sources

Booleans and narrow unsigned integers share bytes. Sources follow each other in
declaration order, most significant bit first, and zeros fill the last byte.
-/

namespace DataLink

/-- A string of bits. -/
abbrev Bits := List Bool

namespace Bits

/-- The low `width` bits of a natural, most significant first. -/
def ofNat : Nat → Nat → Bits
  | 0, _ => []
  | width + 1, n => n.testBit width :: ofNat width n

/-- The natural that a string of bits spells, most significant first. -/
def toNat (bits : Bits) : Nat := bits.foldl (fun n b => 2 * n + b.toNat) 0

/-- The bits of a byte. -/
def ofByte (b : UInt8) : Bits := ofNat 8 b.toNat

/-- Packs bits into so many bytes; zeros stand for missing bits. -/
def pack : Nat → Bits → Bytes
  | 0, _ => []
  | count + 1, bits =>
    let byte := bits.take 8 ++ List.replicate (8 - bits.length) false
    UInt8.ofNat (toNat byte) :: pack count (bits.drop 8)

/-- The bits of all bytes. -/
def unpack (bytes : Bytes) : Bits := bytes.flatMap ofByte

end Bits

/-- A boolean source of one bit. -/
structure Flag where
  binding : Binding
  valueIfNil : Bool
  deriving DecidableEq, Repr

/-- An unsigned source of one to 64 bits. -/
structure Digits where
  binding : Binding
  bits : Nat
  valueIfNil : UInt64
  bits_pos : 0 < bits
  bits_le : bits ≤ 64
  fits : valueIfNil.toNat < Nat.pow 2 bits
  deriving DecidableEq, Repr

/-- A source of bits. -/
inductive BitSource where
  | flag (s : Flag)
  | digits (s : Digits)
  deriving DecidableEq, Repr

namespace BitSource

/-- An unsigned source, if its width is between 1 and 64 bits and holds the substitute
for nil. -/
def ofUnsigned (binding : Binding) (bits : Nat) (valueIfNil : UInt64) :
    Except ConfigFault BitSource :=
  if hbits : 0 < bits ∧ bits ≤ 64 then
    if hfits : valueIfNil.toNat < Nat.pow 2 bits then
      .ok (.digits ⟨binding, bits, valueIfNil, hbits.1, hbits.2, hfits⟩)
    else .error (.nilOutOfRange valueIfNil.toNat bits)
  else .error (.bitWidth bits)

/-- How the source is attached to its cell. -/
def binding : BitSource → Binding
  | .flag s => s.binding
  | .digits s => s.binding

/-- The kind of cell the source carries. -/
def kind : BitSource → CellKind
  | .flag _ => .bool
  | .digits _ => .unsigned

/-- The source's width in bits. -/
def bits : BitSource → Nat
  | .flag _ => 1
  | .digits s => s.bits

/-- The natural sent for the cell's value. -/
def wireValue : BitSource → Option Value → Nat
  | .flag _, some (.bool b) => b.toNat
  | .flag s, _ => s.valueIfNil.toNat
  | .digits s, some (.unsigned n) =>
    if n.toNat < Nat.pow 2 s.bits then n.toNat else s.valueIfNil.toNat
  | .digits s, _ => s.valueIfNil.toNat

/-- The bits sent for the cell's value. -/
def encode (s : BitSource) (value : Option Value) : Bits := Bits.ofNat s.bits (s.wireValue value)

/-- The value that bits stand for. -/
def decode : BitSource → Bits → Value
  | .flag _, bits => .bool (bits.toNat != 0)
  | .digits _, bits => .unsigned (UInt64.ofNat bits.toNat)

/-- The width of all sources in bits. -/
def totalBits : List BitSource → Nat
  | [] => 0
  | s :: rest => s.bits + totalBits rest

/-- The bytes that all sources take. -/
def totalBytes (sources : List BitSource) : Nat := (totalBits sources + 7) / 8

/-- The bytes sent for the cells' values. -/
def encodeAll (sources : List BitSource) (cells : Cells) : Bytes :=
  Bits.pack (totalBytes sources)
    (sources.flatMap fun s => s.encode (cells.value? s.binding.cell))

/-- The values that bits stand for, source by source. -/
def decodeAll : List BitSource → Bits → List Value
  | [], _ => []
  | s :: rest, bits => s.decode (bits.take s.bits) :: decodeAll rest (bits.drop s.bits)

end BitSource

end DataLink
