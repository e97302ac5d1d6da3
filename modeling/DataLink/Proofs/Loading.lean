import DataLink.Layout.Builder

/-!
# Loading

A file may change after its length was checked. So its content is looked at up to one byte beyond the
limit. Content within the limit is seen as a whole. Larger content is seen to be larger, unless the
cut goes through a character, and then it is no text. So a layout is made of all the content or of
none of it.
-/

namespace DataLink

namespace Layout

variable {limit length : Nat} {path text : String} {content : ByteArray} {file : FileState}

/-- Bytes are read as a text exactly if they are the ones that the text is written in. -/
theorem fromUTF8?_eq_some_iff : String.fromUTF8? content = some text ↔ text.toUTF8 = content := by
  constructor
  · intro h
    unfold String.fromUTF8? at h
    split at h
    · rw [← Option.some.inj h]
      rfl
    · cases h
  · rintro rfl
    exact dif_pos text.isValidUTF8

/-- Bytes are no text exactly if they are the encoding of none. -/
theorem fromUTF8?_eq_none_iff :
    String.fromUTF8? content = none ↔ ∀ text : String, text.toUTF8 ≠ content := by
  simp only [Option.eq_none_iff_forall_ne_some, Ne, fromUTF8?_eq_some_iff]

/-- A text takes the bytes that it was read from. -/
theorem utf8ByteSize_of_fromUTF8? (h : String.fromUTF8? content = some text) :
    text.utf8ByteSize = content.size := by
  rw [← fromUTF8?_eq_some_iff.mp h]
  rfl

/-! ### What is read -/

/-- At least as many bytes are read as the limit allows. -/
theorem le_readLength (limit : Nat) : limit ≤ readLength limit := by
  unfold readLength
  split <;> omega

/-- Content within the limit is read as a whole. -/
theorem readLimited_of_le (h : content.size ≤ limit) :
    readLimited limit content =
      match String.fromUTF8? content with
      | none => .error .notText
      | some text => .ok text := by
  have hwhole : content.extract 0 (min content.size (readLength limit)) = content := by
    rw [Nat.min_eq_left (Nat.le_trans h (le_readLength limit))]
    exact ByteArray.extract_zero_size
  rw [readLimited, hwhole]
  cases htext : String.fromUTF8? content with
  | none => rfl
  | some text =>
    have hsize := utf8ByteSize_of_fromUTF8? htext
    have hfits : ¬ limit < text.utf8ByteSize := by omega
    exact if_neg hfits

/-- Why content beyond the limit is not used. After a cut through a character, what is left is not
even a text. -/
def cutFault (limit : Nat) (content : ByteArray) : ReadFault :=
  if (String.fromUTF8? (content.extract 0 (limit + 1))).isSome then .grown else .notText

/-- Content beyond the limit is not used, wherever it is cut. -/
theorem readLimited_of_lt (hsize : content.size ≤ maxLength) (h : limit < content.size) :
    readLimited limit content = .error (cutFault limit content) := by
  have hnext : readLength limit = limit + 1 := if_pos (by omega)
  rw [readLimited, hnext, Nat.min_eq_right h, cutFault]
  cases htext : String.fromUTF8? (content.extract 0 (limit + 1)) with
  | none => rfl
  | some text =>
    have hcut := utf8ByteSize_of_fromUTF8? htext
    rw [ByteArray.size_extract, Nat.min_eq_left h, Nat.sub_zero] at hcut
    have hlarge : limit < text.utf8ByteSize := by omega
    exact if_pos hlarge

/-! ### What a layout is made of -/

/-- A layout is made of this text alone, in whatever way layouts are made of texts. -/
def Reads (limit : Nat) (path : String) (file : FileState) (text : String) : Prop :=
  ∀ read, loadWith read limit path file = read text

/-- Loading fails before a layout is made of anything. -/
def Refuses (limit : Nat) (path : String) (file : FileState) (fault : LoadFault) : Prop :=
  ∀ read, loadWith read limit path file = .error (.load fault)

/-- At most one text is read. -/
theorem Reads.unique {text' : String} (h : Reads limit path file text)
    (h' : Reads limit path file text') : text = text' := by
  have heq := (h fun t => .error (.offset t)).symm.trans (h' fun t => .error (.offset t))
  injection heq with heq
  injection heq

/-- If a text is read, the file is not refused. -/
theorem Reads.not_refuses (h : Reads limit path file text) (fault : LoadFault) :
    ¬ Refuses limit path file fault := by
  intro hrefuses
  have heq := (h fun t => .error (.offset t)).symm.trans (hrefuses fun t => .error (.offset t))
  injection heq with heq
  cases heq

/-- A text within the limit is read as a whole. -/
theorem reads_of_le (hlength : length ≤ limit) (hsize : content.size ≤ limit)
    (htext : text.toUTF8 = content) : Reads limit path (.file length content) text := by
  intro read
  have hfits : ¬ limit < length := Nat.not_lt.mpr hlength
  simp only [loadWith, if_neg hfits, readLimited_of_le hsize, fromUTF8?_eq_some_iff.mpr htext]

/-- A file that is too large at first is refused. -/
theorem refuses_of_length (h : limit < length) :
    Refuses limit path (.file length content) (.tooLarge path length) := fun _ => if_pos h

/-- Content within the limit is refused if it is not a text. -/
theorem refuses_of_not_text (hlength : length ≤ limit) (hsize : content.size ≤ limit)
    (h : ∀ text : String, text.toUTF8 ≠ content) :
    Refuses limit path (.file length content) (.notText path) := by
  intro read
  have hfits : ¬ limit < length := Nat.not_lt.mpr hlength
  simp only [loadWith, if_neg hfits, readLimited_of_le hsize, fromUTF8?_eq_none_iff.mpr h]

/-- A file that has grown beyond the limit is refused. -/
theorem refuses_of_size (hsize : content.size ≤ maxLength) (hlength : length ≤ limit)
    (h : limit < content.size) :
    Refuses limit path (.file length content)
      (if cutFault limit content = .grown then .grown path else .notText path) := by
  intro read
  have hfits : ¬ limit < length := Nat.not_lt.mpr hlength
  simp only [loadWith, if_neg hfits, readLimited_of_lt hsize h]
  cases cutFault limit content <;> rfl

example : cutFault 0 "é".toUTF8 = .notText ∧ cutFault 1 "é".toUTF8 = .grown := by decide +kernel

/-- Every file is either a text within the limit, and read, or it is not, and refused. -/
theorem reads_or_refuses (hsize : content.size ≤ maxLength) :
    (length ≤ limit ∧ content.size ≤ limit ∧
        ∃ text, text.toUTF8 = content ∧ Reads limit path (.file length content) text) ∨
      (limit < length ∨ limit < content.size ∨ ∀ text : String, text.toUTF8 ≠ content) ∧
        ∃ fault, Refuses limit path (.file length content) fault := by
  by_cases hlength : limit < length
  · exact .inr ⟨.inl hlength, _, refuses_of_length hlength⟩
  by_cases hlarge : limit < content.size
  · exact .inr ⟨.inr (.inl hlarge), _, refuses_of_size hsize (Nat.not_lt.mp hlength) hlarge⟩
  rw [Nat.not_lt] at hlength hlarge
  cases htext : String.fromUTF8? content with
  | none =>
    have hnone := fromUTF8?_eq_none_iff.mp htext
    exact .inr ⟨.inr (.inr hnone), _, refuses_of_not_text hlength hlarge hnone⟩
  | some text =>
    have hwhole := fromUTF8?_eq_some_iff.mp htext
    exact .inl ⟨hlength, hlarge, text, hwhole, reads_of_le hlength hlarge hwhole⟩

/-- A layout file is never read in part. Its length was found first and its content later, and it may
have changed in between. A layout is made of a text exactly if both are within the limit and the
content is the whole text, also if it is as long as the limit allows. In all other cases loading
fails before a layout is made of anything. -/
theorem load_whole_or_none {options : Options} (hsize : content.size ≤ maxLength) :
    (∀ text, Reads options.maxFileBytes path (.file length content) text ↔
        length ≤ options.maxFileBytes ∧ content.size ≤ options.maxFileBytes ∧
          text.toUTF8 = content) ∧
      ((∃ fault, Refuses options.maxFileBytes path (.file length content) fault) ↔
        options.maxFileBytes < length ∨ options.maxFileBytes < content.size ∨
          ∀ text : String, text.toUTF8 ≠ content) ∧
      (∀ text, length ≤ options.maxFileBytes → content.size ≤ options.maxFileBytes →
        text.toUTF8 = content →
          load options path (.file length content) = ofText options text) ∧
      (options.maxFileBytes < length ∨ options.maxFileBytes < content.size ∨
          (∀ text : String, text.toUTF8 ≠ content) →
        ∃ fault, load options path (.file length content) = .error (.load fault)) := by
  generalize hlimit : options.maxFileBytes = limit
  have hcases := @reads_or_refuses limit length path content hsize
  have hrefused : (∃ fault, Refuses limit path (.file length content) fault) ↔
      limit < length ∨ limit < content.size ∨ ∀ text : String, text.toUTF8 ≠ content := by
    rcases hcases with ⟨hlength, hlarge, text, htext, hreads⟩ | ⟨hunfit, hrefuses⟩
    · constructor
      · rintro ⟨fault, hrefuses⟩
        exact absurd hrefuses (hreads.not_refuses fault)
      · rintro (h | h | hnone)
        · omega
        · omega
        · exact absurd htext (hnone text)
    · exact ⟨fun _ => hunfit, fun _ => hrefuses⟩
  refine ⟨fun text => ⟨fun hreads => ?_, ?_⟩, hrefused, ?_, fun hunfit => ?_⟩
  · rcases hcases with ⟨hlength, hlarge, text', htext, hreads'⟩ | ⟨-, fault, hrefuses⟩
    · rw [hreads.unique hreads']
      exact ⟨hlength, hlarge, htext⟩
    · exact absurd hrefuses (hreads.not_refuses fault)
  · rintro ⟨hlength, hlarge, htext⟩
    exact reads_of_le hlength hlarge htext
  · intro text hlength hlarge htext
    rw [load, hlimit]
    exact reads_of_le hlength hlarge htext (ofText options)
  · obtain ⟨fault, hrefuses⟩ := hrefused.mpr hunfit
    rw [load, hlimit]
    exact ⟨fault, hrefuses (ofText options)⟩

/-- A layout of one cell, with a name of two bytes. -/
def accented : String :=
  "\x7b\"cells\":\x7b\"é\":\"bool\"\x7d,\"envelopes\":[\x7b\"magic\":\"ab\",\"packets\":" ++
    "[\x7b\"bitfield\":[\x7b\"cell\":\"é\"\x7d]\x7d]\x7d]\x7d"

/-- The options with another limit. -/
def Options.upTo (limit : Nat) : Options := { Options.default with maxFileBytes := limit }

/-- A file that was empty at first and holds a layout later. With the length of the layout as limit,
and with the largest limit there is, the layout is loaded. With one byte less it is not, nor with a
limit at which the cut goes through a character. -/
theorem load_whole_or_none_accented :
    accented.utf8ByteSize = 93 ∧ (ofText .default accented).toBool = true ∧
      (∀ limit, limit = 93 ∨ limit = maxLength →
        Reads limit "link.json" (.file 0 accented.toUTF8) accented ∧
          load (.upTo limit) "link.json" (.file 0 accented.toUTF8) =
            ofText (.upTo limit) accented) ∧
      ∀ limit, limit = 92 ∨ limit = 11 →
        (∃ fault, Refuses limit "link.json" (.file 0 accented.toUTF8) fault) ∧
          ∃ fault, load (.upTo limit) "link.json" (.file 0 accented.toUTF8) =
            .error (.load fault) := by
  have hsize : accented.toUTF8.size = 93 := by decide +kernel
  have hcountable : accented.toUTF8.size ≤ maxLength := by
    rw [hsize]
    decide
  refine ⟨hsize, by decide +kernel, fun limit hlimit => ?_, fun limit hlimit => ?_⟩
  · have hfits : accented.toUTF8.size ≤ limit := by
      rcases hlimit with rfl | rfl
      · exact Nat.le_of_eq hsize
      · exact hcountable
    obtain ⟨hreads, -, hloads, -⟩ :=
      @load_whole_or_none 0 "link.json" accented.toUTF8 (.upTo limit) hcountable
    exact ⟨(hreads accented).mpr ⟨Nat.zero_le limit, hfits, rfl⟩,
      hloads accented (Nat.zero_le limit) hfits rfl⟩
  · have hlarge : limit < accented.toUTF8.size := by omega
    obtain ⟨-, hrefuses, -, hfails⟩ :=
      @load_whole_or_none 0 "link.json" accented.toUTF8 (.upTo limit) hcountable
    exact ⟨hrefuses.mpr (.inr (.inl hlarge)), hfails (.inr (.inl hlarge))⟩

end Layout

end DataLink
