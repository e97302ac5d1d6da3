import DataLink.Fault
import DataLink.Proofs.HexText
import DataLink.Proofs.Trimming

/-!
# The grammar of hexadecimal text

Which texts are read as which bytes: two digits for each byte in either letter case, separators
anywhere among the digits, at most one mark in front of all that, and white space around the whole.
Reading accepts exactly these texts.
-/

namespace DataLink

namespace Hex

/-! ### The grammar -/

/-- The two characters that spell a digit, which are the same for a decimal one. -/
def SpellsDigit (c : Char) (n : Nat) : Prop :=
  n < 16 ∧ (c = Nat.digitChar n ∨ c = (Nat.digitChar n).toUpper)

/-- Whether a character spells a digit is found by comparing it with both spellings. -/
instance (c : Char) (n : Nat) : Decidable (SpellsDigit c n) :=
  inferInstanceAs (Decidable (_ ∧ _))

/-- Two digits for each byte, the more significant one first. -/
inductive SpellsBytes : List Char → Bytes → Prop where
  | done : SpellsBytes [] []
  | byte {high low : Char} {b : UInt8} {text : List Char} {bytes : Bytes}
      (first : SpellsDigit high (b.toNat / 16)) (second : SpellsDigit low (b.toNat % 16))
      (others : SpellsBytes text bytes) : SpellsBytes (high :: low :: text) (b :: bytes)

/-- A text that is these digits with separators inserted. -/
inductive Separated : List Char → List Char → Prop where
  | done : Separated [] []
  | separator {c : Char} {text digits : List Char} (h : c = ':' ∨ c = ' ' ∨ c = '_')
      (others : Separated text digits) : Separated (c :: text) digits
  | digit (c : Char) {text digits : List Char} (others : Separated text digits) :
      Separated (c :: text) (c :: digits)

/-- What may stand in front of digits. -/
def IsMark (text : List Char) : Prop := text = [] ∨ text = ['0', 'x'] ∨ text = ['0', 'X']

/-- A text that may be read as bytes. -/
inductive Spells : List Char → Bytes → Prop where
  | intro {before mark body digits after : List Char} {bytes : Bytes} (hbefore : Blank before)
      (hmark : IsMark mark) (hbody : Separated body digits) (hdigits : SpellsBytes digits bytes)
      (hafter : Blank after) : Spells (before ++ (mark ++ body) ++ after) bytes

variable {c : Char} {n : Nat} {text body digits : List Char} {bytes : Bytes}

/-! ### Digits -/

/-- What a character that spells a digit is encoded as, and what it is not. -/
structure DigitSpec (c : Char) (n : Nat) : Prop where
  encoded : String.utf8EncodeChar c = [UInt8.ofNat c.toNat]
  value : digit? (UInt8.ofNat c.toNat) = some (UInt8.ofNat n)
  not_separator : isSeparator c = false
  not_blank : isBlank c = false
  ne_mark : c ≠ 'x' ∧ c ≠ 'X'

/-- Characters that spell digits are read as these digits and are neither separators nor blanks. -/
theorem SpellsDigit.spec (h : SpellsDigit c n) : DigitSpec c n := by
  obtain ⟨hn, rfl | rfl⟩ := h
  · interval_cases n <;> exact ⟨by decide, by decide, by decide, by decide, by decide⟩
  · interval_cases n <;> exact ⟨by decide, by decide, by decide, by decide, by decide⟩

/-- The bytes that are read as digits encode characters that spell them. -/
theorem spellsDigit_of_digit? {value : UInt8} (hascii : c.toNat < 128)
    (h : digit? (UInt8.ofNat c.toNat) = some value) : SpellsDigit c value.toNat := by
  have hall : ∀ k < 128, ∀ value ∈ digit? (UInt8.ofNat k),
      SpellsDigit (Char.ofNat k) value.toNat := by decide +kernel
  have hspells := hall c.toNat hascii value h
  rwa [Char.ofNat_toNat] at hspells

/-- Only bytes below 128 are digits. -/
theorem digit?_eq_none_of_le {b : UInt8} (h : 128 ≤ b.toNat) : digit? b = none := by
  simp only [digit?, UInt8.le_iff_toNat_le, UInt8.toNat_ofNat]
  split_ifs <;> first | omega | rfl

/-- Characters below 128 are encoded in the one byte of their number. -/
theorem utf8EncodeChar_of_lt (h : c.toNat < 128) :
    String.utf8EncodeChar c = [UInt8.ofNat c.toNat] :=
  if_pos (Nat.le_of_lt_succ h)

/-- Any other character is encoded in bytes that are no digits. -/
theorem utf8EncodeChar_of_le (h : 128 ≤ c.toNat) :
    ∃ b others, String.utf8EncodeChar c = b :: others ∧ digit? b = none := by
  have hascii : ¬ c.val.toNat ≤ 127 := Nat.not_le.mpr h
  simp only [String.utf8EncodeChar, if_neg hascii]
  split_ifs <;> refine ⟨_, _, rfl, digit?_eq_none_of_le ?_⟩ <;> rw [UInt8.toNat_ofNat'] <;> omega

/-- If the first of the encoded bytes is a digit, so is the first character. -/
theorem exists_spellsDigit {b value : UInt8} {others : Bytes} (hdigit : digit? b = some value)
    (h : text.flatMap String.utf8EncodeChar = b :: others) :
    ∃ c rest, text = c :: rest ∧ SpellsDigit c value.toNat ∧
      others = rest.flatMap String.utf8EncodeChar := by
  cases text with
  | nil => cases h
  | cons c rest =>
    rw [List.flatMap_cons] at h
    rcases Nat.lt_or_ge c.toNat 128 with hascii | hlarge
    · rw [utf8EncodeChar_of_lt hascii, List.singleton_append, List.cons.injEq] at h
      obtain ⟨rfl, rfl⟩ := h
      exact ⟨c, rest, rfl, spellsDigit_of_digit? hascii hdigit, rfl⟩
    · obtain ⟨first, more, hencoded, hnone⟩ := utf8EncodeChar_of_le hlarge
      rw [hencoded, List.cons_append, List.cons.injEq] at h
      rw [← h.1, hnone] at hdigit
      cases hdigit

/-! ### Pairs of digits -/

/-- How a pair in front was read. -/
theorem exists_pair {position : Nat} {input rest : Bytes} {b : UInt8}
    (h : pairs position input = .ok (b :: rest)) :
    ∃ high low others first second, input = high :: low :: others ∧
      digit? high = some first ∧ digit? low = some second ∧ 16 * first + second = b ∧
      pairs (position + 2) others = .ok rest := by
  match input with
  | [] => cases h
  | [_] => cases h
  | high :: low :: others =>
    simp only [pairs] at h
    split at h
    · cases h
    · cases h
    · next first second hfirst hsecond =>
      cases hothers : pairs (position + 2) others with
      | error fault =>
        rw [hothers] at h
        cases h
      | ok found =>
        rw [hothers] at h
        cases h
        exact ⟨high, low, others, first, second, rfl, hfirst, hsecond, rfl, hothers⟩

/-- No bytes are read from no text only. -/
theorem eq_nil_of_pairs {position : Nat} {input : Bytes} (h : pairs position input = .ok []) :
    input = [] := by
  match input with
  | [] => rfl
  | [_] => cases h
  | high :: low :: others =>
    simp only [pairs] at h
    split at h
    · cases h
    · cases h
    · cases hothers : pairs (position + 2) others <;> rw [hothers] at h <;> cases h

/-- Every byte is read from two characters. -/
theorem length_of_pairs {position : Nat} {input : Bytes} (h : pairs position input = .ok bytes) :
    input.length = 2 * bytes.length := by
  induction bytes generalizing position input with
  | nil => rw [eq_nil_of_pairs h]; rfl
  | cons b bytes ih =>
    obtain ⟨_, _, others, _, _, rfl, -, -, -, hothers⟩ := exists_pair h
    rw [List.length_cons, List.length_cons, List.length_cons, ih hothers]
    omega

/-- Two digits are the two halves of the byte that they are read as. -/
theorem halves_of_digits {high low : Char} {first second : UInt8}
    (hfirst : SpellsDigit high first.toNat) (hsecond : SpellsDigit low second.toNat) :
    (16 * first + second).toNat / 16 = first.toNat ∧
      (16 * first + second).toNat % 16 = second.toNat := by
  have hhigh := hfirst.1
  have hlow := hsecond.1
  simp only [UInt8.toNat_add, UInt8.toNat_mul, UInt8.toNat_ofNat]
  omega

/-- Characters are read as the bytes that they spell, and as nothing else. -/
theorem pairs_eq_ok_iff (position : Nat) :
    pairs position (digits.flatMap String.utf8EncodeChar) = .ok bytes ↔
      SpellsBytes digits bytes := by
  constructor
  · intro h
    induction bytes generalizing position digits with
    | nil =>
      have hnone := List.flatMap_eq_nil_iff.mp (eq_nil_of_pairs h)
      cases digits with
      | nil => exact .done
      | cons c rest => exact absurd (hnone c List.mem_cons_self) (by simp)
    | cons b bytes ih =>
      obtain ⟨high, low, others, first, second, hinput, hhigh, hlow, rfl, hothers⟩ :=
        exists_pair h
      obtain ⟨c, rest, rfl, hfirst, hrest⟩ := exists_spellsDigit hhigh hinput
      obtain ⟨d, rest, rfl, hsecond, rfl⟩ := exists_spellsDigit hlow hrest.symm
      obtain ⟨hleft, hright⟩ := halves_of_digits hfirst hsecond
      rw [← hleft] at hfirst
      rw [← hright] at hsecond
      exact .byte hfirst hsecond (ih _ hothers)
  · intro h
    induction h generalizing position with
    | done => rfl
    | @byte high low b text bytes first second others ih =>
      simp only [List.flatMap_cons, first.spec.encoded, second.spec.encoded,
        List.singleton_append, pairs, first.spec.value, second.spec.value, ih,
        byte_of_digits]
      rfl

/-! ### Separators -/

/-- Colons, spaces and underscores separate digits. -/
theorem isSeparator_iff : isSeparator c = true ↔ c = ':' ∨ c = ' ' ∨ c = '_' := by
  simp only [isSeparator, Bool.or_eq_true, decide_eq_true_eq, or_assoc]

/-- Leaving separators out inverts inserting them. -/
theorem Separated.filter_eq (h : Separated body digits)
    (hdigits : ∀ c ∈ digits, isSeparator c = false) :
    (body.filter fun c => !isSeparator c) = digits := by
  induction h with
  | done => rfl
  | separator hc others ih =>
    rw [List.filter_cons_of_neg (by rw [isSeparator_iff.mpr hc]; exact Bool.false_ne_true),
      ih hdigits]
  | digit c others ih =>
    rw [List.filter_cons_of_pos (by rw [hdigits c List.mem_cons_self]; rfl),
      ih fun d hd => hdigits d (List.mem_cons_of_mem c hd)]

/-- A text is its own characters with its separators inserted. -/
theorem separated_filter (body : List Char) :
    Separated body (body.filter fun c => !isSeparator c) := by
  induction body with
  | nil => exact .done
  | cons c body ih =>
    cases hc : isSeparator c with
    | true =>
      rw [List.filter_cons_of_neg (by rw [hc]; exact Bool.false_ne_true)]
      exact .separator (isSeparator_iff.mp hc) ih
    | false =>
      rw [List.filter_cons_of_pos (by rw [hc]; rfl)]
      exact .digit c ih

/-- Every character of a separated text is a separator or one of those that are separated. -/
theorem Separated.mem (h : Separated body digits) (hc : c ∈ body) :
    isSeparator c = true ∨ c ∈ digits := by
  induction h with
  | done => cases hc
  | separator hd others ih =>
    rcases List.mem_cons.mp hc with rfl | hc
    · exact .inl (isSeparator_iff.mpr hd)
    · exact ih hc
  | digit d others ih =>
    rcases List.mem_cons.mp hc with rfl | hc
    · exact .inr List.mem_cons_self
    · exact (ih hc).imp_right (List.mem_cons_of_mem d)

/-- Every character that bytes are spelled with spells a digit. -/
theorem SpellsBytes.exists_digit (h : SpellsBytes digits bytes) (hc : c ∈ digits) :
    ∃ n, SpellsDigit c n := by
  induction h with
  | done => cases hc
  | byte first second others ih =>
    rcases List.mem_cons.mp hc with rfl | hc
    · exact ⟨_, first⟩
    · rcases List.mem_cons.mp hc with rfl | hc
      · exact ⟨_, second⟩
      · exact ih hc

/-- Bytes are spelled without separators. -/
theorem SpellsBytes.not_separator (h : SpellsBytes digits bytes) :
    ∀ c ∈ digits, isSeparator c = false := by
  intro c hc
  obtain ⟨n, hn⟩ := h.exists_digit hc
  exact hn.spec.not_separator

/-! ### Marks -/

/-- What is skipped at the front of a text is a mark or nothing. -/
theorem exists_mark (text : List Char) : ∃ mark, IsMark mark ∧ text = mark ++ skipMark text := by
  unfold skipMark
  split
  · exact ⟨_, .inr (.inl rfl), rfl⟩
  · exact ⟨_, .inr (.inr rfl), rfl⟩
  · exact ⟨[], .inl rfl, rfl⟩

/-- Where no letter of a mark occurs, nothing is skipped. -/
theorem skipMark_eq_self (h : ∀ c ∈ text, c ≠ 'x' ∧ c ≠ 'X') : skipMark text = text := by
  unfold skipMark
  split
  · exact absurd rfl (h 'x' (by simp)).1
  · exact absurd rfl (h 'X' (by simp)).2
  · rfl

/-- What stands among digits: no white space but separators, and no part of a mark. -/
structure Body (text : List Char) : Prop where
  blank : ∀ c ∈ text, WhiteSpace c → isSeparator c = true
  ne_mark : ∀ c ∈ text, c ≠ 'x' ∧ c ≠ 'X'

/-- Separated digits have no white space but separators and no letter of a mark. -/
theorem Body.of_spells (hbody : Separated body digits) (hdigits : SpellsBytes digits bytes) :
    Body body := by
  have hkind (c : Char) (hc : c ∈ body) : isSeparator c = true ∨ ∃ n, SpellsDigit c n :=
    (hbody.mem hc).imp_right hdigits.exists_digit
  constructor
  · intro c hc hblank
    refine (hkind c hc).elim id ?_
    rintro ⟨n, hn⟩
    have hnot := hn.spec.not_blank
    rw [(isBlank_iff c).mpr hblank] at hnot
    cases hnot
  · intro c hc
    rcases hkind c hc with hseparator | ⟨n, hn⟩
    · rcases isSeparator_iff.mp hseparator with rfl | rfl | rfl <;> decide
    · exact hn.spec.ne_mark

/-- Blank text among digits has nothing but separators. -/
theorem Body.filter_blank (h : Body body) (hblank : Blank body) :
    (body.filter fun c => !isSeparator c) = [] := by
  refine List.filter_eq_nil_iff.mpr fun c hc => ?_
  rw [h.blank c hc (hblank c hc)]
  exact Bool.false_ne_true

/-- Part of what stands among digits may stand among digits, too. -/
theorem Body.of_subset {part : List Char} (h : Body body) (hpart : part ⊆ body) : Body part :=
  ⟨fun c hc => h.blank c (hpart hc), fun c hc => h.ne_mark c (hpart hc)⟩

/-- Trimming and the mark take nothing from the digits. -/
theorem filter_skipMark_trimBlanks {before mark after : List Char} (hbefore : Blank before)
    (hmark : IsMark mark) (hbody : Body body) (hafter : Blank after) :
    ((skipMark (trimBlanks (before ++ (mark ++ body) ++ after))).filter fun c => !isSeparator c) =
      body.filter fun c => !isSeparator c := by
  rcases hmark with rfl | hmark
  · rw [List.nil_append, trimBlanks_append hbefore hafter]
    obtain ⟨left, right, hsplit, hleft, hright, -⟩ := exists_trimBlanks body
    generalize trimBlanks body = core at hsplit
    subst hsplit
    have hcore : skipMark core = core :=
      skipMark_eq_self fun c hc => hbody.ne_mark c (by simp [hc])
    have hinleft : left ⊆ left ++ core ++ right := fun c hc => by simp [hc]
    have hnoleft := (hbody.of_subset hinleft).filter_blank hleft
    have hnoright := (hbody.of_subset (List.subset_append_right _ _)).filter_blank hright
    rw [hcore, List.filter_append, List.filter_append, hnoleft, hnoright, List.nil_append,
      List.append_nil]
  · have htrimmed : Trimmed mark ∧ mark ≠ [] := by
      rcases hmark with rfl | rfl <;>
        exact ⟨⟨by simp [WhiteSpace], by simp [WhiteSpace]⟩, by simp⟩
    obtain ⟨kept, dropped, rfl, hdropped, htrim⟩ :=
      exists_trimBlanks_append hbefore htrimmed.1 htrimmed.2 hafter body
    have hskip : skipMark (mark ++ kept) = kept := by
      rcases hmark with rfl | rfl <;> rfl
    have hnone :=
      (hbody.of_subset (List.subset_append_right kept dropped)).filter_blank hdropped
    rw [htrim, hskip, List.filter_append, hnone, List.append_nil]

/-! ### Reading -/

/-- What is read are the pairs among what is left of the text, which then is even in length. -/
theorem parse_eq_ok_iff_pairs (text : String) :
    parse text = .ok bytes ↔ pairs 0 (Hex.digits text.toList) = .ok bytes := by
  constructor
  · intro h
    simp only [parse] at h
    split at h
    · cases h
    · exact h
  · intro h
    have hlength := length_of_pairs h
    have heven : ¬ (Hex.digits text.toList).length % 2 = 1 := by omega
    simp only [parse, if_neg heven, h]

/-- Exactly the texts that spell bytes are read, as these bytes. -/
theorem parse_eq_ok_iff (text : String) : parse text = .ok bytes ↔ Spells text.toList bytes := by
  rw [parse_eq_ok_iff_pairs, Hex.digits, pairs_eq_ok_iff]
  constructor
  · intro h
    obtain ⟨before, after, hsplit, hbefore, hafter, -⟩ := exists_trimBlanks text.toList
    obtain ⟨mark, hmark, hcore⟩ := exists_mark (trimBlanks text.toList)
    rw [hsplit, hcore]
    exact .intro hbefore hmark (separated_filter _) h hafter
  · intro h
    generalize text.toList = chars at h
    obtain ⟨hbefore, hmark, hbody, hdigits, hafter⟩ := h
    rw [filter_skipMark_trimBlanks hbefore hmark (.of_spells hbody hdigits) hafter,
      hbody.filter_eq hdigits.not_separator]
    exact hdigits

end Hex

/-- Reading succeeds exactly if parsing does, with the same bytes. -/
theorem readHex_eq_ok_iff_parse {text : String} {bytes : Bytes} :
    readHex text = .ok bytes ↔ Hex.parse text = .ok bytes := by
  unfold readHex
  cases Hex.parse text with
  | error fault => exact iff_of_false (fun h => by cases h) (fun h => by cases h)
  | ok found => simp only [Except.mapError, Except.ok.injEq]

/-- Bytes are read back from their rendering, and a text is read as some bytes exactly if it spells
them: two digits for each in either letter case, separators anywhere among the digits, at most one
mark in front, and white space around the whole. -/
theorem readHex_grammar :
    (∀ bytes, readHex (Hex.render bytes) = .ok bytes) ∧
      ∀ text bytes, readHex text = .ok bytes ↔ Hex.Spells text.toList bytes := by
  constructor
  · intro bytes
    have hjoin := Hex.parse_join_render [bytes]
    rw [List.map_singleton, String.join_cons, String.join_nil, String.append_empty,
      List.flatten_singleton] at hjoin
    exact readHex_eq_ok_iff_parse.mpr hjoin
  · intro text bytes
    rw [readHex_eq_ok_iff_parse, Hex.parse_eq_ok_iff]

/-- Separators may stand behind the mark and at the end, and a pair may be torn apart. -/
example : readHex "\t0X:a_B C d: " = .ok [0xab, 0xcd] := by decide +kernel

/-- Behind a separator a mark is none. -/
example : readHex ":0xab" = .error (.hex ":0xab" (.badDigit 120 1)) := by decide +kernel

end DataLink
