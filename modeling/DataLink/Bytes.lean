/-!
# Bytes

Wire data is a list of bytes. Naturals are written least significant byte first, in a
fixed number of bytes.
-/

namespace DataLink

/-- A string of bytes. -/
abbrev Bytes := List UInt8

namespace Bytes

/-- The low `count` bytes of a natural, least significant first. -/
def ofNat : Nat → Nat → Bytes
  | 0, _ => []
  | count + 1, n => UInt8.ofNat n :: ofNat count (n / 256)

/-- The natural that a string of bytes spells, least significant first. -/
def toNat : Bytes → Nat
  | [] => 0
  | b :: rest => b.toNat + 256 * toNat rest

/-- Whether a string has fewer than this many bytes. It looks at no byte beyond them. -/
def shorterThan : Bytes → Nat → Bool
  | _, 0 => false
  | [], _ + 1 => true
  | _ :: rest, n + 1 => shorterThan rest n

/-- A number is written with as many bytes as are asked for. -/
@[simp] theorem length_ofNat (count n : Nat) : (ofNat count n).length = count := by
  induction count generalizing n with
  | zero => rfl
  | succ count ih => simp [ofNat, ih]

/-- Whether a string is too short can be told from its length. -/
@[simp] theorem shorterThan_iff (bytes : Bytes) (n : Nat) :
    bytes.shorterThan n = true ↔ bytes.length < n := by
  induction n generalizing bytes with
  | zero => cases bytes <;> simp [shorterThan]
  | succ n ih =>
    cases bytes with
    | nil => simp [shorterThan]
    | cons b rest => simp [shorterThan, ih]

/-- A byte in two lowercase hexadecimal digits. -/
def digitPair (b : UInt8) : List Char :=
  [Nat.digitChar (b.toNat / 16), Nat.digitChar (b.toNat % 16)]

/-- All bytes in hexadecimal, without separators. -/
def hex (bytes : Bytes) : String := String.ofList (bytes.flatMap digitPair)

end Bytes

end DataLink
