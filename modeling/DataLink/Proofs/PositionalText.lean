import DataLink.Number.Decimal
import DataLink.Number.Reader
import Mathlib.Algebra.Order.Ring.Int
import Mathlib.Data.List.TakeWhile

/-!
# Positional notation

Integers and decimals are written as digits, with a point among them where a decimal is not whole.
Reading the digits gives the number back: an integer itself, and a decimal as the number nearest to
it.
-/

namespace DataLink

open Reader

namespace Reader

variable {c : Char} {digits more : List Char}

/-- Digits are the characters from zero to nine. -/
theorem isDigit_iff : isDigit c = true ↔ '0'.toNat ≤ c.toNat ∧ c.toNat ≤ '9'.toNat := by
  rw [isDigit, digit?]
  exact Option.isSome_ite

/-- The value of a digit is its distance from zero. -/
theorem digit?_of_isDigit (h : isDigit c = true) : digit? c = some (c.toNat - '0'.toNat) := by
  rw [isDigit, digit?] at h
  rw [digit?]
  split at h <;> simp_all

/-- A text of decimal digits. -/
def Digits (text : List Char) : Prop := ∀ c ∈ text, isDigit c = true

/-- Digits followed by digits are digits. -/
theorem Digits.append (h : Digits digits) (hmore : Digits more) : Digits (digits ++ more) :=
  fun c hc => (List.mem_append.mp hc).elim (h c) (hmore c)

/-- Both parts of digits are digits. -/
theorem Digits.of_append (h : Digits (digits ++ more)) : Digits digits ∧ Digits more :=
  ⟨fun c hc => h c (List.mem_append_left _ hc), fun c hc => h c (List.mem_append_right _ hc)⟩

/-- Naturals are written with digits. -/
theorem digits_toDigits (n : Nat) : Digits (Nat.toDigits 10 n) := fun c hc => by
  rw [isDigit_iff, ← Char.isDigit_iff_toNat]
  exact Nat.isDigit_of_mem_toDigits (by decide) (by decide) hc

/-- Zeros are digits. -/
theorem digits_replicate_zero (count : Nat) : Digits (List.replicate count '0') := fun c hc => by
  rw [List.eq_of_mem_replicate hc]
  rfl

/-- Accumulator form of reading digits. -/
theorem foldl_natural (h : Digits digits) (start : Nat) :
    digits.foldl (fun n c => 10 * n + (digit? c).getD 0) start =
      Nat.ofDigitChars 10 digits start := by
  induction digits generalizing start with
  | nil => rfl
  | cons c digits ih =>
    rw [List.foldl_cons, Nat.ofDigitChars_cons, digit?_of_isDigit (h c List.mem_cons_self),
      Option.getD_some, ih fun d hd => h d (List.mem_cons_of_mem c hd)]

/-- Digits are read in base ten. -/
theorem natural_eq (h : Digits digits) : natural digits = Nat.ofDigitChars 10 digits 0 :=
  foldl_natural h 0

/-- A natural is read as it was written. -/
theorem natural_toDigits (n : Nat) : natural (Nat.toDigits 10 n) = n := by
  rw [natural_eq (digits_toDigits n), Nat.ofDigitChars_ten_toDigits]

/-- Zeros behind the digits of a number multiply it by powers of ten. -/
theorem natural_append_zeros (n count : Nat) :
    natural (Nat.toDigits 10 n ++ List.replicate count '0') = n * 10 ^ count := by
  rw [natural_eq ((digits_toDigits n).append (digits_replicate_zero count)),
    Nat.ofDigitChars_append, Nat.ofDigitChars_ten_toDigits, Nat.ofDigitChars_replicate_zero,
    Nat.mul_comm]

/-- Zeros before the digits of a number leave it as it is. -/
theorem natural_zeros_append (n count : Nat) :
    natural (List.replicate count '0' ++ Nat.toDigits 10 n) = n := by
  rw [natural_eq ((digits_replicate_zero count).append (digits_toDigits n)),
    Nat.ofDigitChars_append, Nat.ofDigitChars_replicate_zero, Nat.mul_zero,
    Nat.ofDigitChars_ten_toDigits]

/-- The text of a natural is read as that natural. -/
theorem natural?_toDigits (n : Nat) : natural? (Nat.toDigits 10 n) = some n := by
  rw [natural?, if_pos ⟨Nat.toDigits_ne_nil, List.all_eq_true.mpr (digits_toDigits n)⟩,
    natural_toDigits]

/-- Digits are taken up to the first character that is none. -/
theorem takeWhile_digits (h : Digits digits) (rest : List Char)
    (hrest : ∀ c ∈ rest.head?, isDigit c = false) :
    (digits ++ rest).takeWhile isDigit = digits ∧ (digits ++ rest).dropWhile isDigit = rest := by
  rw [List.takeWhile_append_of_pos h, List.dropWhile_append_of_pos h]
  cases rest with
  | nil => simp
  | cons c rest => simp [hrest c rfl]

/-- A sign does not start with a digit, and so a text of digits has none. -/
theorem splitSign_digits (hne : digits ≠ []) (h : Digits digits) :
    splitSign digits = (false, digits) := by
  cases digits with
  | nil => exact absurd rfl hne
  | cons c digits =>
    have hdigit := isDigit_iff.mp (h c List.mem_cons_self)
    unfold splitSign
    split <;> simp_all

end Reader

/-! ### Integers -/

/-- A negative integer is written with a minus sign in front of its digits. -/
theorem toList_toString_int (n : Int) : (toString n).toList =
    if 0 ≤ n then Nat.toDigits 10 n.natAbs else '-' :: Nat.toDigits 10 n.natAbs := by
  rw [Int.toString_eq_repr, Int.repr_eq_if]
  split_ifs with h
  · rw [Nat.toList_repr, ← Int.toNat_of_nonneg h, Int.natAbs_natCast, Int.toNat_natCast]
  · have habs : (-n).toNat = n.natAbs := by omega
    rw [String.toList_append, Nat.toList_repr, habs]
    rfl

/-- The text of an unsigned integer is read back. -/
theorem readUnsigned?_toString (n : UInt64) : readUnsigned? (toString n.toNat).toList = some n := by
  have hplus : ∀ rest, Nat.toDigits 10 n.toNat = '+' :: rest → False := fun rest h => by
    have hdigit := isDigit_iff.mp (digits_toDigits n.toNat '+' (h ▸ List.mem_cons_self))
    simp at hdigit
  rw [Nat.toString_eq_repr, Nat.toList_repr, readUnsigned?, natural?_toDigits]
  · simp [n.toNat_lt]
  · exact hplus

/-- The text of a signed integer is read back. -/
theorem readSigned?_toString (n : Int64) : readSigned? (toString n.toInt).toList = some n := by
  have hsplit : splitSign (toString n.toInt).toList =
      (decide (n.toInt < 0), Nat.toDigits 10 n.toInt.natAbs) := by
    rw [toList_toString_int]
    split_ifs with h
    · rw [splitSign_digits Nat.toDigits_ne_nil (digits_toDigits _), decide_eq_false (by omega)]
    · rw [splitSign, decide_eq_true (by omega)]
  have hvalue : (if decide (n.toInt < 0) = true then -(n.toInt.natAbs : Int)
      else n.toInt.natAbs) = n.toInt := by
    split_ifs with h
    · have := of_decide_eq_true h
      omega
    · have := of_decide_eq_false (Bool.eq_false_iff.mpr h)
      omega
  simp only [readSigned?, hsplit, natural?_toDigits, hvalue]
  rw [if_pos ⟨n.minValue_le_toInt, n.toInt_le⟩, Int64.ofInt_toInt]

/-! ### Decimals -/

/-- Text that spells a natural divided by a power of ten: its digits, with a point before as many
of them as the power says. -/
inductive Positional : List Char → Nat → Nat → Prop where
  | whole {digits : List Char} (hne : digits ≠ []) (h : Digits digits) :
    Positional digits (natural digits) 0
  | point {whole fraction : List Char} (hne : whole ≠ []) (hwhole : Digits whole)
    (hfraction : Digits fraction) :
    Positional (whole ++ '.' :: fraction) (natural (whole ++ fraction)) fraction.length

namespace Positional

variable {text : List Char} {n places : Nat}

/-- It starts with a digit. -/
theorem exists_cons (h : Positional text n places) :
    ∃ c rest, text = c :: rest ∧ isDigit c = true := by
  cases h with
  | whole hne h =>
    obtain ⟨c, rest, rfl⟩ := List.exists_cons_of_ne_nil hne
    exact ⟨c, rest, rfl, h c List.mem_cons_self⟩
  | point hne hwhole hfraction =>
    obtain ⟨c, rest, rfl⟩ := List.exists_cons_of_ne_nil hne
    exact ⟨c, _, rfl, hwhole c List.mem_cons_self⟩

/-- Positional text has digits and a point. -/
theorem isDigit_or_eq_point (h : Positional text n places) {c : Char} (hc : c ∈ text) :
    isDigit c = true ∨ c = '.' := by
  cases h with
  | whole hne h => exact .inl (h c hc)
  | point hne hwhole hfraction =>
    rcases List.mem_append.mp hc with hc | hc
    · exact .inl (hwhole c hc)
    · exact (List.mem_cons.mp hc).elim .inr fun hc => .inl (hfraction c hc)

/-- It is read as the number nearest to what it spells. -/
theorem readDecimal?_eq (h : Positional text n places) (negative : Bool) :
    readDecimal? negative text = some (.ofDecimal negative n (-places)) := by
  cases h with
  | whole hne h =>
    obtain ⟨htake, hdrop⟩ := takeWhile_digits h [] (by simp)
    rw [List.append_nil] at htake hdrop
    simp [readDecimal?, htake, hdrop, hne, readExponent?]
  | @point whole fraction hne hwhole hfraction =>
    obtain ⟨htake, hdrop⟩ := takeWhile_digits hwhole ('.' :: fraction) (by simp; decide)
    obtain ⟨htake', hdrop'⟩ := takeWhile_digits hfraction [] (by simp)
    rw [List.append_nil] at htake' hdrop'
    simp [readDecimal?, htake, hdrop, htake', hdrop', hne, readExponent?]

end Positional

/-- Zeros that are pushed onto nothing are zeros only. -/
theorem toList_zeros (count : Nat) : ("".pushn '0' count).toList = List.replicate count '0' := by
  rw [String.pushn_eq_repeat_push]
  induction count with
  | zero => rfl
  | succ count ih => rw [Nat.repeat, String.toList_push, ih, ← List.replicate_succ']

/-- The plain text of a decimal spells it. -/
theorem positional_positionalText (d : Decimal) :
    Positional (DecimalStyle.plain.positionalText d).toList
      (d.significand * 10 ^ d.exponent.toNat) (-d.exponent).toNat := by
  by_cases hwhole : 0 ≤ d.exponent
  · have hplaces : (-d.exponent).toNat = 0 := by omega
    have htext : (DecimalStyle.plain.positionalText d).toList =
        Nat.toDigits 10 d.significand ++ List.replicate d.exponent.toNat '0' := by
      simp [DecimalStyle.positionalText, hwhole, DecimalStyle.plain, toList_zeros]
    rw [htext, hplaces, ← natural_append_zeros]
    exact .whole (by simp [Nat.toDigits_ne_nil])
      ((digits_toDigits _).append (digits_replicate_zero _))
  · have hexponent : d.exponent.toNat = 0 := by omega
    generalize hplaces : (-d.exponent).toNat = places
    -- There is a digit before the point: enough zeros are put in front.
    generalize hpadded : List.replicate (places + 1 - (Nat.toDigits 10 d.significand).length) '0' ++
      Nat.toDigits 10 d.significand = padded
    have hlength : places < padded.length := by
      rw [← hpadded, List.length_append, List.length_replicate]
      omega
    have hdigits : Digits padded :=
      hpadded ▸ (digits_replicate_zero _).append (digits_toDigits _)
    have hnatural : natural padded = d.significand := hpadded ▸ natural_zeros_append _ _
    generalize hfirst : padded.take (padded.length - places) = whole
    generalize hlast : padded.drop (padded.length - places) = fraction
    have happend : whole ++ fraction = padded := by
      rw [← hfirst, ← hlast, List.take_append_drop]
    have hcount : fraction.length = places := by
      rw [← hlast, List.length_drop]
      omega
    have hne : whole ≠ [] := by
      rintro rfl
      rw [← happend, List.nil_append, hcount] at hlength
      exact Nat.lt_irrefl _ hlength
    have htext : (DecimalStyle.plain.positionalText d).toList = whole ++ '.' :: fraction := by
      simp [DecimalStyle.positionalText, hwhole, toList_zeros, hplaces, hpadded, hfirst, hlast,
        ← String.length_toList]
    rw [← happend] at hdigits hnatural
    rw [htext, hexponent, Nat.pow_zero, Nat.mul_one, ← hnatural, ← hcount]
    exact .point hne hdigits.of_append.1 hdigits.of_append.2

/-! ### Numbers and words -/

/-- A character of a number in positional notation. -/
def NumberChar (c : Char) : Prop := isDigit c = true ∨ c = '.' ∨ c = '-'

/-- Characters of numbers have no upper case. -/
theorem toLower_of_numberChar {c : Char} (h : NumberChar c) : c.toLower = c := by
  rcases h with h | rfl | rfl
  · rw [isDigit_iff] at h
    refine dif_neg fun hupper => ?_
    have hle : 'A'.toNat ≤ c.toNat := hupper.1
    have hlt : '9'.toNat < 'A'.toNat := by decide
    omega
  · rfl
  · rfl

/-- There is an `n` in each word that is read as a number, and in none of the numbers. -/
theorem word_ne {text : List Char} (h : ∀ c ∈ text, NumberChar c) {word : String}
    (hword : 'n' ∈ word.toList) : String.ofList (text.map Char.toLower) ≠ word := by
  rintro rfl
  rw [String.toList_ofList, List.map_congr_left fun c hc => toLower_of_numberChar (h c hc),
    List.map_id'] at hword
  exact absurd (h 'n' hword) (by unfold NumberChar; decide)

/-- A number in positional notation, behind a minus sign if it is negative. -/
def signed (negative : Bool) (text : List Char) : List Char :=
  if negative then '-' :: text else text

variable {text : List Char} {n places : Nat}

/-- Signed positional text has characters of numbers only. -/
theorem Positional.numberChar_of_mem_signed (h : Positional text n places) (negative : Bool)
    {c : Char} (hc : c ∈ signed negative text) : NumberChar c := by
  have htext : ∀ c ∈ text, NumberChar c := fun c hc =>
    (h.isDigit_or_eq_point hc).imp_right .inl
  cases negative with
  | false => exact htext c hc
  | true => exact (List.mem_cons.mp hc).elim (fun h => .inr (.inr h)) (htext c)

/-- The sign is split from the text behind it. -/
theorem Positional.splitSign_signed (h : Positional text n places) (negative : Bool) :
    splitSign (signed negative text) = (negative, text) := by
  cases negative with
  | true => rfl
  | false =>
    obtain ⟨c, rest, rfl, hdigit⟩ := h.exists_cons
    rw [isDigit_iff] at hdigit
    unfold signed splitSign
    split <;> simp_all

/-- A number in positional notation is read as the nearest one with its sign. -/
theorem Positional.readBinary64?_signed (h : Positional text n places) (negative : Bool) :
    readBinary64? (signed negative text) = some (.ofDecimal negative n (-places)) := by
  have htext : ∀ c ∈ text, NumberChar c := fun c hc => h.numberChar_of_mem_signed false hc
  rw [readBinary64?, h.splitSign_signed]
  simp only [word_ne htext (show 'n' ∈ "inf".toList by decide),
    word_ne htext (show 'n' ∈ "infinity".toList by decide),
    word_ne htext (show 'n' ∈ "nan".toList by decide), or_self, if_false]
  exact h.readDecimal?_eq negative

end DataLink
