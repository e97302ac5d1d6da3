import DataLink.Link
import DataLink.Proofs.Numerals

/-!
# Accesses in bounds

The functions of a link are total: taking or dropping too many bytes is harmless, and so is a
remainder by zero. Here the same steps are taken by means that can go wrong. Each of them succeeds
within its bounds and otherwise tells what the bounds were. Fields come first: they are read from
a range of the input and widened to eight bytes, and integers are written as the front of eight
bytes.
-/

namespace DataLink

/-- A step that goes out of its bounds. -/
inductive Breach where
  /-- The bytes from one place up to another, of so many. -/
  | range (start stop length : Nat)
  | index (place length : Nat)
  /-- Dropping more from the front of a buffer than it holds. -/
  | advance (count length : Nat)
  | remainderByZero
  /-- A draw with a probability that is none. -/
  | probability (value : Binary64)
  /-- A draw from no numbers. -/
  | emptyRange
  /-- A sum of durations that is not representable. -/
  | sum (a b : Duration)
  deriving DecidableEq

/-- The result of steps that may go out of their bounds. -/
abbrev Checked (α : Type) := Except Breach α

namespace Checked

/-- A computation that succeeds hands its value on. -/
@[simp] theorem ok_bind {α β : Type} (a : α) (f : α → Checked β) :
    ((.ok a : Checked α) >>= f) = f a := rfl

/-- The bytes from one place up to another. -/
def range (bytes : Bytes) (start stop : Nat) : Checked Bytes :=
  if start ≤ stop ∧ stop ≤ bytes.length then .ok ((bytes.drop start).take (stop - start))
  else .error (.range start stop bytes.length)

/-- The member at a place. -/
def get {α : Type} (members : List α) (place : Nat) : Checked α :=
  match members[place]? with
  | some member => .ok member
  | none => .error (.index place members.length)

/-- The bytes with the one at a place changed. -/
def modify (bytes : Bytes) (place : Nat) (f : UInt8 → UInt8) : Checked Bytes :=
  if place < bytes.length then .ok (bytes.modify place f) else .error (.index place bytes.length)

/-- A buffer without so many bytes at its front. -/
def advance (bytes : Bytes) (count : Nat) : Checked Bytes :=
  if count ≤ bytes.length then .ok (bytes.drop count) else .error (.advance count bytes.length)

/-- What is left of a number after division by another one. -/
def remainder (a b : UInt64) : Checked UInt64 :=
  if b = 0 then .error .remainderByZero else .ok (a % b)

/-- A number below another one. -/
def below (noise : Keystream) (count : Nat) : Checked (Nat × Keystream) :=
  if count = 0 then .error .emptyRange else .ok (noise.below count)

/-- Two durations in a row. -/
def sum (a b : Duration) : Checked Duration :=
  match a.add? b with
  | some c => .ok c
  | none => .error (.sum a b)

variable {bytes : Bytes} {start stop place count : Nat}

/-- A range within the bytes is cut out of them. -/
theorem range_of_le (hstart : start ≤ stop) (hstop : stop ≤ bytes.length) :
    range bytes start stop = .ok ((bytes.drop start).take (stop - start)) :=
  if_pos ⟨hstart, hstop⟩

/-- A range at the front of the bytes is what they begin with. -/
theorem range_front (h : stop ≤ bytes.length) : range bytes 0 stop = .ok (bytes.take stop) :=
  range_of_le (Nat.zero_le _) h

/-- A range up to the end of the bytes is what they end with. -/
theorem range_rest (h : start ≤ bytes.length) :
    range bytes start bytes.length = .ok (bytes.drop start) := by
  rw [range_of_le h (Nat.le_refl _), List.take_of_length_le (by rw [List.length_drop])]

/-- A member that exists is found. -/
theorem get_of_some {α : Type} {members : List α} {member : α}
    (h : members[place]? = some member) : get members place = .ok member := by
  rw [get, h]

/-- A byte that exists is changed. -/
theorem modify_of_lt (h : place < bytes.length) (f : UInt8 → UInt8) :
    modify bytes place f = .ok (bytes.modify place f) := if_pos h

/-- A buffer gives up as many bytes as it has. -/
theorem advance_of_le (h : count ≤ bytes.length) : advance bytes count = .ok (bytes.drop count) :=
  if_pos h

/-- Division by another number than zero leaves a remainder. -/
theorem remainder_of_ne {b : UInt64} (h : b ≠ 0) (a : UInt64) : remainder a b = .ok (a % b) :=
  if_neg h

/-- There is a number below every positive one. -/
theorem below_of_pos (h : 0 < count) (noise : Keystream) :
    below noise count = .ok (noise.below count) := if_neg (Nat.ne_of_gt h)

end Checked

namespace Bytes

/-- Zeros in the high bytes change nothing. -/
theorem toNat_append_zeros (bytes : Bytes) (count : Nat) :
    toNat (bytes ++ List.replicate count 0) = toNat bytes := by
  induction bytes with
  | nil =>
    induction count with
    | zero => rfl
    | succ count ih =>
      have hzeros : toNat (List.replicate count 0) = 0 := ih
      simp only [List.nil_append, List.replicate_succ, toNat, hzeros]
      rfl
  | cons b rest ih => rw [List.cons_append, toNat, ih, toNat]

/-- The low bytes of a number do not depend on how many bytes are written in all. -/
theorem take_ofNat {width count : Nat} (h : width ≤ count) (n : Nat) :
    (ofNat count n).take width = ofNat width n := by
  induction width generalizing count n with
  | zero => rfl
  | succ width ih =>
    obtain ⟨count, rfl⟩ : ∃ fewer, count = fewer + 1 := ⟨count - 1, by omega⟩
    rw [ofNat, List.take_succ_cons, ih (by omega), ofNat]

/-- A number in few bytes is the front of the same number in eight. -/
theorem range_ofNat {width : Nat} (h : width ≤ 8) (n : Nat) :
    Checked.range (ofNat 8 n) 0 width = .ok (ofNat width n) := by
  rw [Checked.range_front (by rwa [length_ofNat]), take_ofNat h]

/-- Eight bytes that start with the given ones. -/
def widen (bytes : Bytes) : Checked Bytes := do
  let room ← Checked.range (List.replicate 8 0) 0 bytes.length
  .ok (bytes ++ List.replicate (8 - room.length) 0)

/-- Up to eight bytes are filled up to eight. -/
theorem widen_of_le {bytes : Bytes} (h : bytes.length ≤ 8) :
    bytes.widen = .ok (bytes ++ List.replicate (8 - bytes.length) 0) := by
  have hroom : bytes.length ≤ (List.replicate 8 (0 : UInt8)).length := h
  rw [widen, Checked.range_front hroom, Checked.ok_bind, List.length_take_of_le hroom]

end Bytes

namespace FloatWidth

/-- The bytes of a float, one by one, or as eight bytes. -/
def read : FloatWidth → Bytes → Checked Bytes
  | .two, bytes => do
    let a ← Checked.get bytes 0
    let b ← Checked.get bytes 1
    .ok [a, b]
  | .four, bytes => do
    let a ← Checked.get bytes 0
    let b ← Checked.get bytes 1
    let c ← Checked.get bytes 2
    let d ← Checked.get bytes 3
    .ok [a, b, c, d]
  | .eight, bytes => bytes.widen

/-- As many bytes as the width has are read as they are. -/
theorem read_of_length {w : FloatWidth} {bytes : Bytes} (h : bytes.length = w.bytes) :
    w.read bytes = .ok bytes := by
  cases w with
  | two =>
    match bytes, h with
    | [a, b], _ => rfl
  | four =>
    match bytes, h with
    | [a, b, c, d], _ => rfl
  | eight =>
    have hlength : bytes.length = 8 := h
    rw [read, Bytes.widen_of_le (by omega), hlength]
    exact congrArg Except.ok (List.append_nil bytes)

end FloatWidth

namespace Field

/-- No field is wider than eight bytes. -/
theorem size_le (f : Field) : f.size ≤ 8 := by
  cases f with
  | signed f => cases h : f.width <;> simp [size, h, IntWidth.bytes]
  | unsigned f => cases h : f.width <;> simp [size, h, IntWidth.bytes]
  | float f => cases h : f.width <;> simp [size, h, FloatWidth.bytes]

/-- Decodes a field from the front of an input. -/
def decodeChecked (f : Field) (input : Bytes) : Checked (Option Value) := do
  let bytes ← Checked.range input 0 f.size
  match f with
  | .signed f =>
    let raw ← bytes.widen
    .ok (some (f.decode raw))
  | .unsigned _ =>
    let raw ← bytes.widen
    .ok (some (UnsignedField.decode raw))
  | .float f =>
    let raw ← f.width.read bytes
    .ok (f.decode raw)

/-- Decoding a field of enough bytes touches none outside them. -/
theorem decodeChecked_eq {f : Field} {input : Bytes} (h : f.size ≤ input.length) :
    f.decodeChecked input = .ok (f.decode (input.take f.size)) := by
  have hlength : (input.take f.size).length = f.size := List.length_take_of_le h
  have hroom : (input.take f.size).length ≤ 8 := Nat.le_trans (Nat.le_of_eq hlength) f.size_le
  rw [decodeChecked, Checked.range_front h, Checked.ok_bind]
  cases f with
  | signed f =>
    simp only [Bytes.widen_of_le hroom, Checked.ok_bind, SignedField.decode,
      Bytes.toNat_append_zeros, decode]
  | unsigned f =>
    simp only [Bytes.widen_of_le hroom, Checked.ok_bind, UnsignedField.decode,
      Bytes.toNat_append_zeros, decode]
  | float f =>
    have hwidth : (input.take (Field.float f).size).length = f.width.bytes := hlength
    simp only [FloatWidth.read_of_length hwidth, Checked.ok_bind, decode]

/-- Encodes a field. An integer is cut out of eight bytes. -/
def encodeChecked : Field → Option Value → Checked Bytes
  | .signed f, value =>
    Checked.range (Bytes.ofNat 8 (f.wireValue value).toUInt64.toNat) 0 f.width.bytes
  | .unsigned f, value => Checked.range (Bytes.ofNat 8 (f.wireValue value).toNat) 0 f.width.bytes
  | .float f, value => .ok (f.encode value)

/-- Encoding a field touches no byte outside the field. -/
theorem encodeChecked_eq (f : Field) (value : Option Value) :
    f.encodeChecked value = .ok (f.encode value) := by
  cases f with
  | signed f => exact Bytes.range_ofNat (Field.signed f).size_le _
  | unsigned f => exact Bytes.range_ofNat (Field.unsigned f).size_le _
  | float f => rfl

end Field

end DataLink
