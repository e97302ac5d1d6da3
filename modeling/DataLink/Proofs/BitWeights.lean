import DataLink.Proofs.Decoding
import DataLink.Proofs.Echo
import DataLink.Proofs.Padding
import Mathlib.Algebra.BigOperators.Fin

/-!
# The number that shared bytes spell

Sources that share bytes are digits of one number, which the bytes spell most significant first.
Every source weighs a power of two: one bit for each bit of the sources behind it, and one for
each bit of padding. The digits that make up the number are the numbers that the sources send, and
those that they read.
-/

namespace DataLink

/-- The number that bytes spell, most significant first. -/
def Bytes.bigEndian (bytes : Bytes) : Nat := bytes.foldl (fun n b => 256 * n + b.toNat) 0

namespace Bits

/-- Bits in front of others spell a multiple of a power of two. -/
theorem toNat_append (bits more : Bits) :
    toNat (bits ++ more) = toNat bits * 2 ^ more.length + toNat more := by
  rw [toNat, List.foldl_append, foldl_toNat, ← toNat, Nat.mul_comm]

/-- The bits of a byte spell its number. -/
theorem toNat_ofByte (b : UInt8) : toNat (ofByte b) = b.toNat := by
  rw [ofByte, toNat_ofNat, Nat.mod_eq_of_lt b.toNat_lt]

/-- Bytes and their bits spell the same number. -/
theorem toNat_unpack (bytes : Bytes) : toNat (unpack bytes) = bytes.bigEndian := by
  induction bytes using List.reverseRecOn with
  | nil => rfl
  | append_singleton bytes b ih =>
    have hunpack : unpack (bytes ++ [b]) = unpack bytes ++ ofByte b := by
      rw [unpack, List.flatMap_append, List.flatMap_singleton, unpack]
    have hspelled : Bytes.bigEndian (bytes ++ [b]) = 256 * Bytes.bigEndian bytes + b.toNat := by
      rw [Bytes.bigEndian, List.foldl_append, List.foldl_cons, List.foldl_nil, ← Bytes.bigEndian]
    rw [hunpack, toNat_append, length_ofByte, toNat_ofByte, ih, hspelled, Nat.mul_comm]
    rfl

end Bits

namespace BitSource

/-! ### Numbers of sources -/

/-- The number in a value of the kind that the source carries. -/
def number? : BitSource → Value → Option Nat
  | .flag _, .bool b => some b.toNat
  | .digits _, .unsigned n => some n.toNat
  | _, _ => none

/-- The number that stands for nil. -/
def substitute : BitSource → Nat
  | .flag s => s.valueIfNil.toNat
  | .digits s => s.valueIfNil.toNat

/-- The number that a source sends: the one in its cell, if there is one and it is below the power
of two for the source's width, and else the substitute. -/
def sent (s : BitSource) (cells : Cells) : Nat :=
  (((cells.value? s.binding.cell).bind s.number?).filter (· < 2 ^ s.bits)).getD s.substitute

/-- The substitute for nil has as many bits as the source. -/
theorem substitute_lt (s : BitSource) : s.substitute < 2 ^ s.bits := by
  cases s with
  | flag s => exact Nat.lt_succ_of_le (Bool.toNat_le _)
  | digits s => exact s.fits

/-- What is sent has as many bits as the source. -/
theorem sent_lt (s : BitSource) (cells : Cells) : s.sent cells < 2 ^ s.bits := by
  rw [sent]
  cases h : ((cells.value? s.binding.cell).bind s.number?).filter (· < 2 ^ s.bits) with
  | none => exact s.substitute_lt
  | some n => exact of_decide_eq_true (Option.filter_eq_some_iff.mp h).2

/-- The source sends its cell's number or the substitute for nil. -/
theorem wireValue_eq_sent (s : BitSource) (cells : Cells) :
    s.wireValue (cells.value? s.binding.cell) = s.sent cells := by
  rw [sent]
  cases cells.value? s.binding.cell with
  | none => cases s <;> rfl
  | some v =>
    cases s with
    | flag s =>
      cases v with
      | bool b => cases b <;> rfl
      | _ => rfl
    | digits s =>
      cases v with
      | unsigned n =>
        by_cases hfits : n.toNat < 2 ^ s.bits
        · simp [number?, bits, wireValue, Option.filter_some, hfits]
        · simp [number?, bits, wireValue, Option.filter_some, hfits, substitute]
      | _ => rfl

/-- What a source sends is spelled by its bits. -/
theorem toNat_encode (s : BitSource) (cells : Cells) :
    (s.encode (cells.value? s.binding.cell)).toNat = s.sent cells := by
  rw [encode, Bits.toNat_ofNat, wireValue_eq_sent, Nat.mod_eq_of_lt (s.sent_lt cells)]

/-- What a source reads is the number that its bits spell. -/
theorem number?_decode (s : BitSource) {slice : Bits} (h : slice.length = s.bits) :
    s.number? (s.decode slice) = some slice.toNat := by
  have hlt := Bits.toNat_lt slice
  rw [h] at hlt
  cases s with
  | flag s =>
    rw [decode, number?]
    have hlow : slice.toNat = 0 ∨ slice.toNat = 1 := by
      rw [bits] at hlt
      omega
    rcases hlow with hlow | hlow <;> rw [hlow] <;> rfl
  | digits s =>
    have hwide : 2 ^ s.bits ≤ 2 ^ 64 := Nat.pow_le_pow_right Nat.two_pos s.bits_le
    rw [decode, number?, UInt64.toNat_ofNat', Nat.mod_eq_of_lt (Nat.lt_of_lt_of_le hlt hwide)]

/-! ### Numbers in front of each other -/

/-- The number whose digits are those of the sources, each in front of the sources behind it. -/
def weighted (sources : List BitSource) (values : Fin sources.length → Nat) : Nat :=
  ∑ i, values i * 2 ^ totalBits (sources.drop (i + 1))

/-- The first source weighs more than all bits behind it. -/
theorem weighted_cons (s : BitSource) (rest : List BitSource)
    (values : Fin (s :: rest).length → Nat) :
    weighted (s :: rest) values =
      values (0 : Fin (rest.length + 1)) * 2 ^ totalBits rest +
        weighted rest fun i => values i.succ :=
  Fin.sum_univ_succ (n := rest.length) _

/-- Digits within their widths make up a number within all widths. -/
theorem weighted_lt {sources : List BitSource} {values : Fin sources.length → Nat}
    (h : ∀ i, values i < 2 ^ sources[i].bits) :
    weighted sources values < 2 ^ totalBits sources := by
  induction sources with
  | nil => exact Nat.one_pos
  | cons s rest ih =>
    have hothers := ih fun i => h i.succ
    have hfirst : values (0 : Fin (rest.length + 1)) + 1 ≤ 2 ^ s.bits :=
      h (0 : Fin (rest.length + 1))
    rw [weighted_cons, totalBits, Nat.pow_add]
    calc _ < (values (0 : Fin (rest.length + 1)) + 1) * 2 ^ totalBits rest := by
          rw [Nat.add_one_mul]
          exact Nat.add_lt_add_left hothers _
      _ ≤ 2 ^ s.bits * 2 ^ totalBits rest := Nat.mul_le_mul_right _ hfirst

/-- What stands in front of so many bits, and what stands in them. -/
theorem eq_of_place_eq {width high low high' low' : Nat} (hlow : low < 2 ^ width)
    (hlow' : low' < 2 ^ width) (h : high * 2 ^ width + low = high' * 2 ^ width + low') :
    high = high' ∧ low = low' := by
  have hpos : 0 < 2 ^ width := Nat.two_pow_pos width
  have hhigh := congrArg (· / 2 ^ width) h
  have hrest := congrArg (· % 2 ^ width) h
  simp only [Nat.mul_comm _ (2 ^ width), Nat.mul_add_div hpos, Nat.div_eq_of_lt hlow,
    Nat.div_eq_of_lt hlow', Nat.add_zero, Nat.mul_add_mod, Nat.mod_eq_of_lt hlow,
    Nat.mod_eq_of_lt hlow'] at hhigh hrest
  exact ⟨hhigh, hrest⟩

/-- Digits within their widths can be told from the number that they make up. -/
theorem weighted_inj {sources : List BitSource} {values others : Fin sources.length → Nat}
    (hvalues : ∀ i, values i < 2 ^ sources[i].bits) (hothers : ∀ i, others i < 2 ^ sources[i].bits)
    (h : weighted sources values = weighted sources others) : values = others := by
  induction sources with
  | nil => exact funext fun i => i.elim0
  | cons s rest ih =>
    rw [weighted_cons, weighted_cons] at h
    obtain ⟨hfirst, hrest⟩ := eq_of_place_eq (weighted_lt fun i => hvalues i.succ)
      (weighted_lt fun i => hothers i.succ) h
    have htail := ih (fun i => hvalues i.succ) (fun i => hothers i.succ) hrest
    funext i
    cases i using Fin.cases (n := rest.length) with
    | zero => exact hfirst
    | succ i => exact congrFun htail i

/-- The bits of sources spell the numbers that the sources send. -/
theorem toNat_flatMap_encode (sources : List BitSource) (cells : Cells) :
    Bits.toNat (sources.flatMap fun s => s.encode (cells.value? s.binding.cell)) =
      weighted sources fun i => sources[i].sent cells := by
  induction sources with
  | nil => rfl
  | cons s rest ih =>
    rw [List.flatMap_cons, Bits.toNat_append, length_flatMap_encode, ih, toNat_encode,
      weighted_cons]
    rfl

/-- The numbers that sources read are those that the bits spell. -/
theorem exists_decodeAll {sources : List BitSource} {bits : Bits}
    (h : totalBits sources ≤ bits.length) :
    ∃ values : Fin sources.length → Nat, (∀ i, values i < 2 ^ sources[i].bits) ∧
      Bits.toNat (bits.take (totalBits sources)) = weighted sources values ∧
      ∀ i, ∃ v, (decodeAll sources bits)[i]? = some v ∧ sources[i].number? v = some (values i) := by
  induction sources generalizing bits with
  | nil => exact ⟨fun i => i.elim0, fun i => i.elim0, rfl, fun i => i.elim0⟩
  | cons s rest ih =>
    rw [totalBits] at h
    have hslice : (bits.take s.bits).length = s.bits := List.length_take_of_le (by omega)
    obtain ⟨values, hfits, hspelled, hread⟩ := @ih (bits.drop s.bits) (by
      rw [List.length_drop]
      omega)
    have hrest : ((bits.drop s.bits).take (totalBits rest)).length = totalBits rest :=
      List.length_take_of_le (by rw [List.length_drop]; omega)
    have hfirst : Bits.toNat (bits.take s.bits) < 2 ^ s.bits := by
      have hlt := Bits.toNat_lt (bits.take s.bits)
      rwa [hslice] at hlt
    refine ⟨Fin.cons (Bits.toNat (bits.take s.bits)) values, ?_, ?_, ?_⟩
    · intro i
      cases i using Fin.cases (n := rest.length) with
      | zero => exact hfirst
      | succ i => exact hfits i
    · rw [totalBits, List.take_add, Bits.toNat_append, hrest, hspelled, weighted_cons]
      rfl
    · intro i
      cases i using Fin.cases (n := rest.length) with
      | zero => exact ⟨_, rfl, s.number?_decode hslice⟩
      | succ i => exact hread i

/-! ### Bytes -/

/-- The number of bits that fill the last byte. -/
def padding (sources : List BitSource) : Nat := 8 * totalBytes sources - totalBits sources

/-- Bytes spell these numbers, each within its width and in front of the sources behind it, and
all of them in front of the padding, whatever its bits are. -/
structure Spells (sources : List BitSource) (values : Fin sources.length → Nat) (bytes : Bytes) :
    Prop where
  fits : ∀ i, values i < 2 ^ sources[i].bits
  spelled : ∃ filling < 2 ^ padding sources,
    bytes.bigEndian =
      (∑ i, values i * 2 ^ totalBits (sources.drop (i + 1))) * 2 ^ padding sources + filling

/-- Bits and padding fill whole bytes. -/
theorem totalBits_add_padding (sources : List BitSource) :
    totalBits sources + padding sources = 8 * totalBytes sources := by
  rw [padding, totalBytes]
  omega

/-- Bytes spell the numbers of sources in one way only. -/
theorem Spells.unique {sources : List BitSource} {values others : Fin sources.length → Nat}
    {bytes : Bytes} (h : Spells sources values bytes) (hothers : Spells sources others bytes) :
    others = values := by
  obtain ⟨filling, hlt, hspelled⟩ := h.spelled
  obtain ⟨filling', hlt', hspelled'⟩ := hothers.spelled
  have hsame := eq_of_place_eq hlt' hlt (hspelled'.symm.trans hspelled)
  exact weighted_inj hothers.fits h.fits hsame.1

/-- What is sent is the weighted sum of the sources' numbers, moved beyond the padding. -/
theorem bigEndian_encodeAll (sources : List BitSource) (cells : Cells) :
    (encodeAll sources cells).bigEndian =
      (weighted sources fun i => sources[i].sent cells) * 2 ^ padding sources := by
  have hbits := length_flatMap_encode sources cells
  have hroom := totalBits_add_padding sources
  rw [← Bits.toNat_unpack, encodeAll, Bits.unpack_pack (by rw [hbits]; omega), hbits, ← padding,
    Bits.toNat_append_zeros, toNat_flatMap_encode]

/-- Enough bytes spell the numbers that sources read from them. -/
theorem exists_spells {sources : List BitSource} {bytes : Bytes}
    (h : bytes.length = totalBytes sources) :
    ∃ values, Spells sources values bytes ∧
      ∀ i : Fin sources.length, ∃ v, (decodeAll sources (Bits.unpack bytes))[i]? = some v ∧
        sources[i].number? v = some (values i) := by
  have hroom := totalBits_add_padding sources
  have hlength := Bits.length_unpack bytes
  obtain ⟨values, hfits, hspelled, hread⟩ :=
    @exists_decodeAll sources (Bits.unpack bytes) (by omega)
  have hfilling : ((Bits.unpack bytes).drop (totalBits sources)).length = padding sources := by
    rw [List.length_drop]
    omega
  have hlt := Bits.toNat_lt ((Bits.unpack bytes).drop (totalBits sources))
  have hnumber := Bits.toNat_append ((Bits.unpack bytes).take (totalBits sources))
    ((Bits.unpack bytes).drop (totalBits sources))
  rw [hfilling] at hlt
  rw [List.take_append_drop, Bits.toNat_unpack, hspelled, hfilling] at hnumber
  exact ⟨values, ⟨hfits, _, hlt, hnumber⟩, hread⟩

end BitSource

open BitSource in
/-- Sources that share bytes send one number, most significant bit first. Its digits are the
numbers of the sources, and zeros fill the last byte. From any input that is long enough, each
source reads the one number that the bytes spell in its place, whatever fills the last byte. -/
theorem bits_spell_numbers (sources : List BitSource) :
    (∀ cells : Cells,
      ((Packet.bits sources).emit cells).length = (totalBits sources + 7) / 8 ∧
        ((Packet.bits sources).emit cells).bigEndian =
          (∑ i : Fin sources.length,
            sources[i].sent cells * 2 ^ totalBits (sources.drop (i + 1))) *
              2 ^ (8 * ((totalBits sources + 7) / 8) - totalBits sources)) ∧
    ∀ input : Bytes, (totalBits sources + 7) / 8 ≤ input.length →
      ∃ values, Spells sources values (input.take ((totalBits sources + 7) / 8)) ∧
        (∀ others, Spells sources others (input.take ((totalBits sources + 7) / 8)) →
          others = values) ∧
        ((Packet.bits sources).decode input).outcome = .ok ((totalBits sources + 7) / 8) ∧
        ((Packet.bits sources).decode input).staged.length = sources.length ∧
        ∀ i : Fin sources.length, ∃ v,
          ((Packet.bits sources).decode input).staged[i]? = some (some v) ∧
            sources[i].number? v = some (values i) := by
  have hcount : (totalBits sources + 7) / 8 = totalBytes sources := rfl
  rw [hcount]
  refine ⟨fun cells => ?_, fun input hlong => ?_⟩
  · exact ⟨length_encodeAll sources cells, bigEndian_encodeAll sources cells⟩
  · have hlength : (input.take (totalBytes sources)).length = totalBytes sources :=
      List.length_take_of_le hlong
    obtain ⟨values, hspells, hread⟩ := exists_spells hlength
    rw [Packet.decode, Packet.needing_of_le _ hlong]
    refine ⟨values, hspells, fun _ hothers => hspells.unique hothers, rfl, ?_, fun i => ?_⟩
    · rw [List.length_map, Packet.length_decodeAll_sources]
    · obtain ⟨v, hv, hnumber⟩ := hread i
      exact ⟨v, by rw [Fin.getElem?_fin, List.getElem?_map, ← Fin.getElem?_fin, hv]; rfl, hnumber⟩

/-! ### A small system

A lamp and a level of nine bits share two bytes.
-/

namespace Panel

/-- The lamp, which is one bit wide. -/
def lamp : BitSource := .flag ⟨⟨"lamp", true, false⟩, false⟩

/-- The level, which is nine bits wide. Seven stands for nil. -/
def level : BitSource :=
  .digits ⟨⟨"level", true, false⟩, 9, 7, by decide, by decide, by decide⟩

/-- The lamp is on, and the level is 300. -/
def cells : Cells :=
  (((Cells.empty.declare "lamp" .bool).declare "level" .unsigned).put "lamp"
    (some (.bool true))).put "level" (some (.unsigned 300))

/-- The lamp stands in front of nine bits of the level, and six more bits fill the last byte. If
they are not zero, the same numbers are read. -/
theorem panel_spells_numbers :
    (Packet.emit cells (.bits [lamp, level])).bigEndian = (1 * 2 ^ 9 + 300) * 2 ^ 6 ∧
      ∃ values : Fin 2 → Nat, values 0 = 1 ∧ values 1 = 300 ∧
        BitSource.Spells [lamp, level] values [0xCB, 0x3F] ∧
        ∀ i : Fin 2, ∃ v,
          ((Packet.bits [lamp, level]).decode [0xCB, 0x3F]).staged[i]? = some (some v) ∧
            [lamp, level][i].number? v = some (values i) := by
  obtain ⟨hsent, hread⟩ := bits_spell_numbers [lamp, level]
  have hspells : BitSource.Spells [lamp, level] ![1, 300] [0xCB, 0x3F] :=
    ⟨by decide, 63, by decide, by decide⟩
  obtain ⟨values, -, hunique, -, -, hvalues⟩ := hread [0xCB, 0x3F] (by decide)
  obtain rfl := hunique _ hspells
  exact ⟨(hsent cells).2, _, rfl, rfl, hspells, hvalues⟩

end Panel

end DataLink
