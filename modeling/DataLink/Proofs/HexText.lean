import DataLink.Hex
import Mathlib.Tactic.IntervalCases

/-!
# Bytes read back from their hexadecimal text

Bytes that are rendered as digits are read back, also from several renderings one behind the
other: what stands between digits is skipped wherever it stands.
-/

namespace DataLink

namespace Hex

/-! ### Digits -/

/-- The byte that encodes a digit. -/
def digitByte (n : Nat) : UInt8 := UInt8.ofNat (if n < 10 then 48 + n else 87 + n)

/-- Each digit is encoded in one byte. -/
theorem utf8EncodeChar_digitChar {n : Nat} (h : n < 16) :
    String.utf8EncodeChar (Nat.digitChar n) = [digitByte n] := by
  interval_cases n <;> decide

/-- A rendered digit is read back. -/
theorem digit?_digitByte {n : Nat} (h : n < 16) : digit? (digitByte n) = some (UInt8.ofNat n) := by
  interval_cases n <;> decide

/-- The characters that renderings consist of. -/
def Plain (c : Char) : Prop := c = ':' ∨ ∃ n < 16, c = Nat.digitChar n

/-- None of them is white space or a part of the mark in front of digits. -/
theorem Plain.spec {c : Char} (h : Plain c) : isBlank c = false ∧ c ≠ 'x' ∧ c ≠ 'X' := by
  rcases h with rfl | ⟨n, hn, rfl⟩
  · decide
  · interval_cases n <;> decide

/-- No digit is a separator. -/
theorem isSeparator_digitChar {n : Nat} (h : n < 16) : isSeparator (Nat.digitChar n) = false := by
  interval_cases n <;> decide

/-- A byte is told by its two digits. -/
theorem byte_of_digits (b : UInt8) :
    16 * UInt8.ofNat (b.toNat / 16) + UInt8.ofNat (b.toNat % 16) = b := by
  have hb := b.toNat_lt
  apply UInt8.toNat_inj.mp
  simp only [UInt8.toNat_add, UInt8.toNat_mul, UInt8.toNat_ofNat', UInt8.toNat_ofNat]
  omega

/-- The digits of a byte, encoded in bytes. -/
theorem flatMap_digitPair (b : UInt8) :
    (Bytes.digitPair b).flatMap String.utf8EncodeChar =
      [digitByte (b.toNat / 16), digitByte (b.toNat % 16)] := by
  have hb := b.toNat_lt
  simp only [Bytes.digitPair, List.flatMap_cons, List.flatMap_nil,
    utf8EncodeChar_digitChar (show b.toNat / 16 < 16 by omega),
    utf8EncodeChar_digitChar (show b.toNat % 16 < 16 by omega), List.append_nil,
    List.singleton_append]

/-- Pairs of digits are read as the bytes that they were rendered from. -/
theorem pairs_digits (position : Nat) (bytes : Bytes) :
    pairs position ((bytes.flatMap Bytes.digitPair).flatMap String.utf8EncodeChar) =
      .ok bytes := by
  induction bytes generalizing position with
  | nil => rfl
  | cons b rest ih =>
    have hb := b.toNat_lt
    rw [List.flatMap_cons, List.flatMap_append, flatMap_digitPair]
    simp only [List.cons_append, List.nil_append, pairs,
      digit?_digitByte (show b.toNat / 16 < 16 by omega),
      digit?_digitByte (show b.toNat % 16 < 16 by omega), ih, byte_of_digits]
    rfl

/-- Every byte is written with two digits. -/
theorem length_digits (bytes : Bytes) :
    ((bytes.flatMap Bytes.digitPair).flatMap String.utf8EncodeChar).length = 2 * bytes.length := by
  induction bytes with
  | nil => rfl
  | cons b rest ih =>
    rw [List.flatMap_cons, List.flatMap_append, flatMap_digitPair, List.length_append, ih,
      List.length_cons, List.length_cons, List.length_cons, List.length_nil]
    omega

/-! ### Texts -/

/-- A text of digits and colons has no blanks around it. -/
theorem trimBlanks_of_plain {text : List Char} (h : ∀ c ∈ text, Plain c) :
    trimBlanks text = text := by
  have hkeeps (chars : List Char) (hchars : ∀ c ∈ chars, Plain c) :
      chars.dropWhile isBlank = chars := by
    cases chars with
    | nil => rfl
    | cons c rest =>
      have hblank := (hchars c List.mem_cons_self).spec.1
      rw [List.dropWhile_cons_of_neg]
      rw [hblank]
      exact Bool.false_ne_true
  have hreverse : ∀ c ∈ text.reverse, Plain c := fun c hc => h c (List.mem_reverse.mp hc)
  rw [trimBlanks, hkeeps text h, hkeeps text.reverse hreverse, List.reverse_reverse]

/-- A text of digits and colons has no mark in front. -/
theorem skipMark_of_plain {text : List Char} (h : ∀ c ∈ text, Plain c) : skipMark text = text := by
  unfold skipMark
  split
  · exact absurd rfl (h 'x' (by simp)).spec.2.1
  · exact absurd rfl (h 'X' (by simp)).spec.2.2
  · rfl

/-- A text of digits and colons is read as the bytes whose digits are left without the colons. -/
theorem parse_of_plain {text : String} {bytes : Bytes} (hplain : ∀ c ∈ text.toList, Plain c)
    (hdigits : (text.toList.filter fun c => !isSeparator c) = bytes.flatMap Bytes.digitPair) :
    parse text = .ok bytes := by
  have heven : ¬ (2 * bytes.length) % 2 = 1 := by omega
  simp only [parse, digits, trimBlanks_of_plain hplain, skipMark_of_plain hplain, hdigits,
    length_digits, if_neg heven, pairs_digits]

/-! ### Renderings -/

/-- Bytes are written with digits. -/
theorem plain_of_mem_digitPair {b : UInt8} {c : Char} (h : c ∈ Bytes.digitPair b) : Plain c := by
  have hb := b.toNat_lt
  simp only [Bytes.digitPair, List.mem_cons, List.not_mem_nil, or_false] at h
  rcases h with rfl | rfl
  · exact .inr ⟨_, by omega, rfl⟩
  · exact .inr ⟨_, by omega, rfl⟩

/-- Taking out separators leaves the digits of a byte. -/
theorem filter_digitPair (b : UInt8) :
    ((Bytes.digitPair b).filter fun c => !isSeparator c) = Bytes.digitPair b := by
  have hb := b.toNat_lt
  simp only [Bytes.digitPair, List.filter_cons, List.filter_nil,
    isSeparator_digitChar (show b.toNat / 16 < 16 by omega),
    isSeparator_digitChar (show b.toNat % 16 < 16 by omega), Bool.not_false, if_true]

/-- Bytes are written with colons between them. -/
theorem toList_render (bytes : Bytes) :
    (render bytes).toList = [':'].intercalate (bytes.map Bytes.digitPair) := by
  rw [render, String.toList_intercalate, List.map_map]
  congr 1
  exact List.map_congr_left fun b _ => String.toList_ofList

/-- A first byte is followed by a colon if there are others. -/
theorem toList_render_cons (b : UInt8) (rest : Bytes) :
    (render (b :: rest)).toList =
      if rest = [] then Bytes.digitPair b
      else Bytes.digitPair b ++ ':' :: (render rest).toList := by
  simp only [toList_render]
  cases rest with
  | nil => simp [List.intercalate]
  | cons c rest => simp [List.intercalate]

/-- Bytes are written with digits and colons. -/
theorem plain_of_mem_render {bytes : Bytes} {c : Char} (h : c ∈ (render bytes).toList) :
    Plain c := by
  induction bytes with
  | nil => cases h
  | cons b rest ih =>
    rw [toList_render_cons] at h
    split at h
    · exact plain_of_mem_digitPair h
    · rcases List.mem_append.mp h with hpair | hothers
      · exact plain_of_mem_digitPair hpair
      · rcases List.mem_cons.mp hothers with rfl | hrest
        · exact .inl rfl
        · exact ih hrest

/-- Without the colons, a rendering is the digits of its bytes. -/
theorem filter_render (bytes : Bytes) :
    ((render bytes).toList.filter fun c => !isSeparator c) = bytes.flatMap Bytes.digitPair := by
  induction bytes with
  | nil => rfl
  | cons b rest ih =>
    have hcolon : (!isSeparator ':') = false := by decide
    rw [toList_render_cons, List.flatMap_cons, ← ih]
    split
    · next hrest =>
      subst hrest
      rw [filter_digitPair]
      exact (List.append_nil _).symm
    · rw [List.filter_append, filter_digitPair, List.filter_cons, hcolon,
        if_neg Bool.false_ne_true]

/-- Renderings that follow each other are read as all of their bytes. -/
theorem parse_join_render (blobs : List Bytes) :
    parse (String.join (blobs.map render)) = .ok blobs.flatten := by
  have htext : (String.join (blobs.map render)).toList =
      blobs.flatMap fun blob => (render blob).toList := by
    rw [String.toList_join, List.flatMap_map]
  apply parse_of_plain
  · intro c hc
    rw [htext] at hc
    obtain ⟨blob, -, hc⟩ := List.mem_flatMap.mp hc
    exact plain_of_mem_render hc
  · rw [htext, List.filter_flatMap, List.flatten_eq_flatMap, List.flatMap_assoc]
    simp only [filter_render, id]

end Hex

end DataLink
