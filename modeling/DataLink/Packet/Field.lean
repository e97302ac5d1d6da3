import DataLink.Cells
import DataLink.Fault

/-!
# Fields

A field carries one cell in a fixed number of bytes. Integers are two's complement, least
significant byte first, and a substitute stands for nil and for values that do not fit.
Floats are binary floating point; what is not a number stands for nil.
-/

namespace DataLink

/-- Bytes of an integer field. -/
inductive IntWidth where
  | one
  | two
  | four
  | eight
  deriving DecidableEq, Repr

namespace IntWidth

/-- The width in bytes. -/
def bytes : IntWidth → Nat
  | .one => 1
  | .two => 2
  | .four => 4
  | .eight => 8

/-- The width in bits. -/
def bits (w : IntWidth) : Nat := 8 * w.bytes

/-- The width of so many bytes. -/
def ofBytes? : Nat → Option IntWidth
  | 1 => some .one
  | 2 => some .two
  | 4 => some .four
  | 8 => some .eight
  | _ => none

/-- Whether a signed value has this width. -/
def fitsSigned (w : IntWidth) (n : Int64) : Bool :=
  let half : Int := Nat.pow 2 (w.bits - 1)
  decide (-half ≤ n.toInt) && decide (n.toInt < half)

/-- Whether an unsigned value has this width. -/
def fitsUnsigned (w : IntWidth) (n : UInt64) : Bool := n.toNat < Nat.pow 2 w.bits

end IntWidth

/-- Bytes of a float field. -/
inductive FloatWidth where
  | two
  | four
  | eight
  deriving DecidableEq, Repr

namespace FloatWidth

/-- The width in bytes. -/
def bytes : FloatWidth → Nat
  | .two => 2
  | .four => 4
  | .eight => 8

/-- The format of this width. -/
def format : FloatWidth → Format
  | .two => .binary16
  | .four => .binary32
  | .eight => .binary64

/-- The width of so many bytes. -/
def ofBytes? : Nat → Option FloatWidth
  | 2 => some .two
  | 4 => some .four
  | 8 => some .eight
  | _ => none

end FloatWidth

/-- How a part of a packet is attached to a cell. -/
structure Binding where
  /-- The cell's name. -/
  cell : String
  /-- Whether decoded values and nils are written to the cell. -/
  writable : Bool
  /-- Whether the cell keeps its value when nil arrives and on failsafe. -/
  retained : Bool
  deriving DecidableEq, Repr

namespace Binding

/-- Assigns through a binding, which does nothing unless it is writable. -/
def put (b : Binding) (cells : Cells) (value : Option Value) : Cells :=
  if b.writable then cells.put b.cell value else cells

/-- Delivers a staged value. Nil is withheld from a retained cell. -/
def deliver (b : Binding) (cells : Cells) (staged : Option Value) : Cells :=
  if staged.isNone && b.retained then cells else b.put cells staged

/-- Clears the cell unless it is retained. -/
def failsafe (b : Binding) (cells : Cells) : Cells :=
  if b.retained then cells else b.put cells none

end Binding

/-- A signed integer field. -/
structure SignedField where
  binding : Binding
  width : IntWidth
  valueIfNil : Int64
  fits : width.fitsSigned valueIfNil = true
  deriving DecidableEq, Repr

/-- An unsigned integer field. -/
structure UnsignedField where
  binding : Binding
  width : IntWidth
  valueIfNil : UInt64
  fits : width.fitsUnsigned valueIfNil = true
  deriving DecidableEq, Repr

/-- A float field. -/
structure FloatField where
  binding : Binding
  width : FloatWidth
  /-- Subtracted before encoding and added back on delivery. -/
  offset : Option Binary64
  finite : offset.all Binary64.isFinite = true
  deriving DecidableEq, Repr

/-- A field of one of the three kinds. -/
inductive Field where
  | signed (f : SignedField)
  | unsigned (f : UnsignedField)
  | float (f : FloatField)
  deriving DecidableEq, Repr

namespace SignedField

/-- The value sent for the cell's value. -/
def wireValue (f : SignedField) : Option Value → Int64
  | some (.signed n) => if f.width.fitsSigned n then n else f.valueIfNil
  | _ => f.valueIfNil

/-- The bytes sent for the cell's value. -/
def encode (f : SignedField) (value : Option Value) : Bytes :=
  Bytes.ofNat f.width.bytes (f.wireValue value).toUInt64.toNat

/-- The value that bytes stand for. -/
def decode (f : SignedField) (input : Bytes) : Value :=
  .signed (Int64.ofInt (Int.bmod input.toNat (Nat.pow 2 f.width.bits)))

end SignedField

namespace UnsignedField

/-- The value sent for the cell's value. -/
def wireValue (f : UnsignedField) : Option Value → UInt64
  | some (.unsigned n) => if f.width.fitsUnsigned n then n else f.valueIfNil
  | _ => f.valueIfNil

/-- The bytes sent for the cell's value. -/
def encode (f : UnsignedField) (value : Option Value) : Bytes :=
  Bytes.ofNat f.width.bytes (f.wireValue value).toNat

/-- The value that bytes stand for. -/
def decode (input : Bytes) : Value := .unsigned (UInt64.ofNat input.toNat)

end UnsignedField

namespace FloatField

/-- The offset, zero if there is none. -/
def shift (f : FloatField) : Binary64 := f.offset.getD .zero

/-- The number sent for the cell's value. A finite value that the offset makes infinite
is sent as nil. -/
def wireValue (f : FloatField) : Option Value → Binary64
  | some (.float x) =>
    let shifted := x.sub f.shift
    if x.isFinite && shifted.isInfinite then .nan else shifted
  | _ => .nan

/-- The pattern of a number. A finite number too large for the width is sent as nil. -/
def pattern (w : FloatWidth) (x : Binary64) : Nat :=
  let nearest := w.format.encode x
  if x.isFinite && w.format.isInfinity nearest then w.format.quietNaN else nearest

/-- The bytes sent for the cell's value. -/
def encode (f : FloatField) (value : Option Value) : Bytes :=
  Bytes.ofNat f.width.bytes (pattern f.width (f.wireValue value))

/-- The number that bytes stand for, before the offset is added back. -/
def decode (f : FloatField) (input : Bytes) : Option Value :=
  let x := f.width.format.decode input.toNat
  if x.isNaN then none else some (.float x)

/-- The value delivered for a decoded one. -/
def restore (f : FloatField) : Value → Value
  | .float x => .float (x.add f.shift)
  | v => v

end FloatField

namespace Field

/-- A signed field, if it can carry its own substitute for nil. -/
def ofSigned (binding : Binding) (width : IntWidth) (valueIfNil : Int64) :
    Except ConfigFault Field :=
  if h : width.fitsSigned valueIfNil = true then .ok (.signed ⟨binding, width, valueIfNil, h⟩)
  else .error (.nilOutOfRange valueIfNil.toInt width.bits)

/-- An unsigned field, if it can carry its own substitute for nil. -/
def ofUnsigned (binding : Binding) (width : IntWidth) (valueIfNil : UInt64) :
    Except ConfigFault Field :=
  if h : width.fitsUnsigned valueIfNil = true then .ok (.unsigned ⟨binding, width, valueIfNil, h⟩)
  else .error (.nilOutOfRange valueIfNil.toNat width.bits)

/-- A float field, if its offset is finite. -/
def ofFloat (binding : Binding) (width : FloatWidth) (offset : Option Binary64) :
    Except ConfigFault Field :=
  if h : offset.all Binary64.isFinite = true then .ok (.float ⟨binding, width, offset, h⟩)
  else .error (.offset (offset.getD .zero))

/-- How the field is attached to its cell. -/
def binding : Field → Binding
  | .signed f => f.binding
  | .unsigned f => f.binding
  | .float f => f.binding

/-- The kind of cell the field carries. -/
def kind : Field → CellKind
  | .signed _ => .signed
  | .unsigned _ => .unsigned
  | .float _ => .float

/-- The field's width in bytes. -/
def size : Field → Nat
  | .signed f => f.width.bytes
  | .unsigned f => f.width.bytes
  | .float f => f.width.bytes

/-- The bytes sent for the cell's value. -/
def encode : Field → Option Value → Bytes
  | .signed f, value => f.encode value
  | .unsigned f, value => f.encode value
  | .float f, value => f.encode value

/-- The value that bytes stand for. -/
def decode : Field → Bytes → Option Value
  | .signed f, input => some (f.decode input)
  | .unsigned _, input => some (UnsignedField.decode input)
  | .float f, input => f.decode input

/-- The value delivered for a decoded one. -/
def restore : Field → Value → Value
  | .float f, value => f.restore value
  | _, value => value

end Field

end DataLink
