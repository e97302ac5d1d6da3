import DataLink.Layout.Document
import Mathlib.Algebra.Order.Ring.Int

/-!
# Layouts that make sense

What a layout document has to fulfil is said here without building anything: what every part
demands of its cell, how many bytes it takes, and which keys and magics must differ. Kinds of cells
are those that the document itself declares.
-/

namespace DataLink

/-- A JSON value is this integer. -/
inductive Json.IsInteger : Json → Int → Prop where
  | natural (n : UInt64) : IsInteger (.number (.natural n)) n.toNat
  | negative (n : Int64) : IsInteger (.number (.negative n)) n.toInt

namespace Layout

/-- What kind of cell a document declares under a name. The last declaration counts. -/
def Document.declared (d : Document) (name : String) : Option CellKind :=
  d.cells.reverse.lookup name

/-- The bytes that a text stands for, if it is hexadecimal. -/
def hex? (text : String) : Option Bytes := (Hex.parse text).toOption

/-- Two's complement of so many bytes holds the number. -/
def FitsSigned (bytes : Nat) (n : Int) : Prop := -2 ^ (8 * bytes - 1) ≤ n ∧ n < 2 ^ (8 * bytes - 1)

variable (declared : String → Option CellKind)

/-- A field carries a number. An integer has a substitute for nil that fits its width. A float has
no substitute, but an offset may be given for it. -/
inductive FieldDoc.WellFormed (d : FieldDoc) : Prop where
  | signed (kind : declared d.cell = some .signed) (bytes : d.bytes ∈ [1, 2, 4, 8])
      (offset : d.offset = none)
      (fits : ∀ json ∈ d.valueIfNil, ∃ n, json.IsInteger n ∧ FitsSigned d.bytes n)
  | unsigned (kind : declared d.cell = some .unsigned) (bytes : d.bytes ∈ [1, 2, 4, 8])
      (offset : d.offset = none)
      (fits : ∀ json ∈ d.valueIfNil, ∃ n : UInt64, json = .number (.natural n) ∧
        n.toNat < 2 ^ (8 * d.bytes))
  | float (kind : declared d.cell = some .float) (bytes : d.bytes ∈ [2, 4, 8])
      (substitute : d.valueIfNil = none) (finite : ∀ x ∈ d.offset, x.isFinite = true)

namespace FieldDoc

variable {declared} {d : FieldDoc}

/-- No field carries a boolean. -/
theorem WellFormed.kind (h : d.WellFormed declared) :
    declared d.cell = some .signed ∨ declared d.cell = some .unsigned ∨
      declared d.cell = some .float := by
  cases h with
  | signed kind => exact .inl kind
  | unsigned kind => exact .inr (.inl kind)
  | float kind => exact .inr (.inr kind)

/-- Only a float has an offset. -/
theorem WellFormed.offset (h : d.WellFormed declared) :
    d.offset = none ∨ declared d.cell = some .float := by
  cases h with
  | signed kind bytes offset => exact .inl offset
  | unsigned kind bytes offset => exact .inl offset
  | float kind => exact .inr kind

/-- A signed field is well formed exactly if it has no offset, a width for integers, and a value for
nil that fits. -/
theorem wellFormed_signed_iff (hkind : declared d.cell = some .signed) :
    d.WellFormed declared ↔ d.offset = none ∧ d.bytes ∈ [1, 2, 4, 8] ∧
      ∀ json ∈ d.valueIfNil, ∃ n, json.IsInteger n ∧ FitsSigned d.bytes n := by
  constructor
  · rintro (⟨-, hbytes, hoffset, hfits⟩ | ⟨kind, -, -, -⟩ | ⟨kind, -, -, -⟩)
    · exact ⟨hoffset, hbytes, hfits⟩
    · cases hkind.symm.trans kind
    · cases hkind.symm.trans kind
  · rintro ⟨hoffset, hbytes, hfits⟩
    exact .signed hkind hbytes hoffset hfits

/-- An unsigned field is well formed exactly if it has no offset, a width for integers, and a value
for nil that fits. -/
theorem wellFormed_unsigned_iff (hkind : declared d.cell = some .unsigned) :
    d.WellFormed declared ↔ d.offset = none ∧ d.bytes ∈ [1, 2, 4, 8] ∧
      ∀ json ∈ d.valueIfNil, ∃ n : UInt64, json = .number (.natural n) ∧
        n.toNat < 2 ^ (8 * d.bytes) := by
  constructor
  · rintro (⟨kind, -, -, -⟩ | ⟨-, hbytes, hoffset, hfits⟩ | ⟨kind, -, -, -⟩)
    · cases hkind.symm.trans kind
    · exact ⟨hoffset, hbytes, hfits⟩
    · cases hkind.symm.trans kind
  · rintro ⟨hoffset, hbytes, hfits⟩
    exact .unsigned hkind hbytes hoffset hfits

/-- A float field is well formed exactly if it has no value for nil, a width for floats and a finite
offset. -/
theorem wellFormed_float_iff (hkind : declared d.cell = some .float) :
    d.WellFormed declared ↔
      d.valueIfNil = none ∧ d.bytes ∈ [2, 4, 8] ∧ ∀ x ∈ d.offset, x.isFinite = true := by
  constructor
  · rintro (⟨kind, -, -, -⟩ | ⟨kind, -, -, -⟩ | ⟨-, hbytes, hsubstitute, hfinite⟩)
    · cases hkind.symm.trans kind
    · cases hkind.symm.trans kind
    · exact ⟨hsubstitute, hbytes, hfinite⟩
  · rintro ⟨hsubstitute, hbytes, hfinite⟩
    exact .float hkind hbytes hsubstitute hfinite

end FieldDoc

/-- The bits of a described source. A boolean has one and a number has 64 unless said otherwise. -/
def SourceDoc.width (d : SourceDoc) : Nat :=
  d.bits.getD (if declared d.cell = some .bool then 1 else 64)

/-- A source of bits carries a boolean or an unsigned number, each with a substitute for nil that
fits. -/
inductive SourceDoc.WellFormed (d : SourceDoc) : Prop where
  | flag (kind : declared d.cell = some .bool) (bits : ∀ n ∈ d.bits, n = 1)
      (substitute : ∀ json ∈ d.valueIfNil, ∃ b, json = .bool b)
  | digits (kind : declared d.cell = some .unsigned)
      (bits : 1 ≤ d.bits.getD 64 ∧ d.bits.getD 64 ≤ 64)
      (fits : ∀ json ∈ d.valueIfNil, ∃ n : UInt64, json = .number (.natural n) ∧
        n.toNat < 2 ^ d.bits.getD 64)

namespace SourceDoc

variable {declared} {d : SourceDoc}

/-- No source carries a signed number or a float. -/
theorem WellFormed.kind (h : d.WellFormed declared) :
    declared d.cell = some .bool ∨ declared d.cell = some .unsigned := by
  cases h with
  | flag kind => exact .inl kind
  | digits kind => exact .inr kind

/-- A flag is well formed exactly if it has one bit, and a truth value for nil. -/
theorem wellFormed_bool_iff (hkind : declared d.cell = some .bool) :
    d.WellFormed declared ↔
      (∀ n ∈ d.bits, n = 1) ∧ ∀ json ∈ d.valueIfNil, ∃ b, json = .bool b := by
  constructor
  · rintro (⟨-, hbits, hsubstitute⟩ | ⟨kind, -, -⟩)
    · exact ⟨hbits, hsubstitute⟩
    · cases hkind.symm.trans kind
  · rintro ⟨hbits, hsubstitute⟩
    exact .flag hkind hbits hsubstitute

/-- A number of bits is well formed exactly if there are from one to sixty-four of them, and its
value for nil fits. -/
theorem wellFormed_unsigned_iff (hkind : declared d.cell = some .unsigned) :
    d.WellFormed declared ↔ (1 ≤ d.bits.getD 64 ∧ d.bits.getD 64 ≤ 64) ∧
      ∀ json ∈ d.valueIfNil, ∃ n : UInt64, json = .number (.natural n) ∧
        n.toNat < 2 ^ d.bits.getD 64 := by
  constructor
  · rintro (⟨kind, -, -⟩ | ⟨-, hbits, hfits⟩)
    · cases hkind.symm.trans kind
    · exact ⟨hbits, hfits⟩
  · rintro ⟨hbits, hfits⟩
    exact .digits hkind hbits hfits

end SourceDoc

namespace PacketDoc

mutual

/-- All parts make sense, and signatures have lengths in range and keys that are not empty. -/
def WellFormed : PacketDoc → Prop
  | .value d => d.WellFormed declared
  | .bitfield ds => ∀ d ∈ ds, d.WellFormed declared
  | .sequence ds => AllWellFormed ds
  | .signature nonceBytes digestBytes key ds =>
    (1 ≤ nonceBytes ∧ 1 ≤ digestBytes ∧ digestBytes ≤ 32 ∧
      ∃ bytes, hex? key = some bytes ∧ bytes ≠ []) ∧ AllWellFormed ds

/-- All parts of all packets make sense. -/
def AllWellFormed : List PacketDoc → Prop
  | [] => True
  | d :: rest => d.WellFormed ∧ AllWellFormed rest

end

mutual

/-- The bytes of a described packet. -/
def size : PacketDoc → Nat
  | .value d => d.bytes
  | .bitfield ds => ((ds.map fun d => d.width declared).sum + 7) / 8
  | .sequence ds => totalSize ds
  | .signature nonceBytes digestBytes _ ds => nonceBytes + totalSize ds + digestBytes

/-- The bytes of described packets in sequence. -/
def totalSize : List PacketDoc → Nat
  | [] => 0
  | d :: rest => d.size + totalSize rest

end

mutual

/-- The keys of all signatures, in the order in which they begin. -/
def keys : PacketDoc → List Bytes
  | .value _ => []
  | .bitfield _ => []
  | .sequence ds => allKeys ds
  | .signature _ _ key ds => (hex? key).toList ++ allKeys ds

/-- The keys of all signatures in packets in sequence. -/
def allKeys : List PacketDoc → List Bytes
  | [] => []
  | d :: rest => d.keys ++ allKeys rest

end

end PacketDoc

/-- An envelope has a magic of the common length and a cadence, and it carries something. -/
structure EnvelopeDoc.WellFormed (magicSize : Nat) (d : EnvelopeDoc) : Prop where
  magic : ∃ bytes, hex? d.magic = some bytes ∧ bytes ≠ [] ∧ bytes.length = magicSize
  cadence : 1 ≤ d.sendEvery.toNat
  payload : 0 < PacketDoc.totalSize declared d.packets
  packets : PacketDoc.AllWellFormed declared d.packets

/-- A document describes one or more envelopes, but not too many. Their magics are distinct and of
one length, and no key is used twice. -/
structure Document.WellFormed (maxEnvelopes : Nat) (d : Document) : Prop where
  count : 1 ≤ d.envelopes.length ∧ d.envelopes.length ≤ maxEnvelopes
  envelopes : ∃ magicSize, ∀ e ∈ d.envelopes, e.WellFormed d.declared magicSize
  magics : (d.envelopes.map fun e => hex? e.magic).Nodup
  keys : (d.envelopes.flatMap fun e => PacketDoc.allKeys e.packets).Nodup

end Layout

end DataLink
