import DataLink.Text.Column

/-!
# Ligatures

Letters of some scripts are drawn as one with letters before them. A text is read from its
end: the last part of a ligature is met first, and it says what may come before it.
-/

namespace DataLink

/-- The end of a ligature whose beginning has not been met. Some ligatures are formed only
if a joiner stands between their parts. -/
inductive Ligature where
  /-- An Arabic alef, which is drawn into a lam. -/
  | alef
  /-- A Hebrew lamed, which is joined to an alef. -/
  | lamed (isJoined : Bool)
  /-- A Buginese ya, which is joined to an a with the vowel i. -/
  | ya (isJoined : Bool)
  /-- A Buginese ya with the joined vowel i before it. -/
  | vowelYa
  /-- A Tifinagh consonant, which is joined to another. -/
  | consonant (isJoined : Bool)
  /-- A Tifinagh consonant with the joiner of its script before it. -/
  | boundConsonant
  /-- A Lisu tone letter that ends a pair. -/
  | tone
  /-- An Old Turkic i, which is joined to a consonant. -/
  | orkhonI (isJoined : Bool)
  /-- A Khmer letter that a sign before it makes a subscript. -/
  | subscript
  /-- The Kirat Rai vowel sign e, which ends other vowel signs. -/
  | vowelE
  /-- The Kirat Rai vowel sign ai, which ends another vowel sign. -/
  | vowelAi
  deriving DecidableEq, Repr

namespace Ligature

/-- Arabic letters of the joining group of alef. -/
def alefs : CharSet := ⟨[
  0x622, 0x624, 0x625, 0x626, 0x627, 0x628, 0x671, 0x674, 0x675, 0x676, 0x773, 0x775, 0x870,
  0x883]⟩

/-- Arabic letters of the joining group of lam. -/
def lams : CharSet := ⟨[
  0x644, 0x645, 0x6b5, 0x6b9, 0x76a, 0x76b, 0x8a6, 0x8a7, 0x8c7, 0x8c8]⟩

/-- Khmer letters that have a subscript form. -/
def subscriptLetters : CharSet := ⟨[
  0x1780, 0x1783, 0x1784, 0x1788, 0x1789, 0x178d, 0x178e, 0x1794, 0x1795, 0x1799, 0x179b,
  0x179e, 0x17a0, 0x17a1, 0x17a2, 0x17a3, 0x17a7, 0x17a8, 0x17ab, 0x17ad, 0x17af, 0x17b0]⟩

/-- Tifinagh consonants that form ligatures. -/
def consonants : CharSet := ⟨[0x2d31, 0x2d66, 0x2d6f, 0x2d70]⟩

/-- Lisu tone letters that begin a pair. -/
def firstTones : CharSet := .between 0xa4f8 0xa4fb

/-- Lisu tone letters that end a pair. -/
def lastTones : CharSet := .between 0xa4fc 0xa4fd

/-- Marks that are not displayed, and so do not part a ligature. -/
def ignorableMarks : CharSet := ⟨[
  0x34f, 0x350, 0x17b4, 0x17b6, 0x180b, 0x180e, 0x180f, 0x1810, 0xfe00, 0xfe10, 0xe0100, 0xe01f0]⟩

/-- The table of characters across which Arabic letters do not join. -/
private def partingChars : List Nat := [
  0x605, 0x606, 0x890, 0x892, 0x8e2, 0x8e3, 0x9be, 0x9bf, 0x9d7, 0x9d8, 0xb3e, 0xb3f, 0xb57,
  0xb58, 0xbbe, 0xbbf, 0xbd7, 0xbd8, 0xcc0, 0xcc1, 0xcc2, 0xcc3, 0xcc7, 0xcc9, 0xcca, 0xccc,
  0xcd5, 0xcd7, 0xd3e, 0xd3f, 0xd4e, 0xd4f, 0xd57, 0xd58, 0xdcf, 0xdd0, 0xddf, 0xde0, 0x1160,
  0x1200, 0x1715, 0x1716, 0x1734, 0x1735, 0x180e, 0x180f, 0x1b35, 0x1b36, 0x1b3b, 0x1b3c,
  0x1b3d, 0x1b3e, 0x1b43, 0x1b45, 0x1baa, 0x1bab, 0x1bf2, 0x1bf4, 0x200c, 0x200e, 0x2065,
  0x206a, 0x302e, 0x3030, 0x3164, 0x3165, 0xa8fa, 0xa8fb, 0xa953, 0xa954, 0xa9c0, 0xa9c1,
  0xd7b0, 0xd7c7, 0xd7cb, 0xd7fc, 0xffa0, 0xffa1, 0xfff0, 0xfff9, 0x111c0, 0x111c1, 0x111c2,
  0x111c4, 0x11235, 0x11236, 0x1133e, 0x1133f, 0x1134d, 0x1134e, 0x11357, 0x11358, 0x113b8,
  0x113b9, 0x113c2, 0x113c3, 0x113c5, 0x113c6, 0x113c7, 0x113ca, 0x113cf, 0x113d0, 0x113d1,
  0x113d2, 0x114b0, 0x114b1, 0x114bd, 0x114be, 0x115af, 0x115b0, 0x116b6, 0x116b7, 0x11930,
  0x11931, 0x1193d, 0x1193e, 0x1193f, 0x11940, 0x11941, 0x11942, 0x11a84, 0x11a8a, 0x11d46,
  0x11d47, 0x11f02, 0x11f03, 0x11f41, 0x11f42, 0x16ff0, 0x16ff2, 0x1d165, 0x1d167, 0x1d16d,
  0x1d173, 0x1d250, 0x1d253, 0x1d25f, 0x1d260, 0x1d280, 0x1d282, 0xe0000, 0xe0001, 0xe0002,
  0xe0020, 0xe0080, 0xe0100, 0xe01f0, 0xe1000]

/-- Characters without a column across which Arabic letters do not join. -/
def parting : CharSet := ⟨partingChars⟩

/-- The ligature that ends in a letter. -/
def ofChar? (c : Char) : Option Ligature :=
  if alefs.contains c then some .alef
  else if c = '\u05dc' then some (.lamed false)
  else if c = '\u1a10' then some (.ya false)
  else if consonants.contains c then some (.consonant false)
  else if lastTones.contains c then some .tone
  else if c.toNat = 0x10c03 then some (.orkhonI false)
  else if subscriptLetters.contains c then some .subscript
  else if c.toNat = 0x16d67 then some .vowelE
  else if c.toNat = 0x16d68 then some .vowelAi
  else none

/-- Whether characters that only say how to draw a ligature may stand inside it. -/
def isTransparent : Ligature → Bool
  | .vowelE => false
  | .vowelAi => false
  | _ => true

/-- A ligature after a joiner before it. -/
def joined : Ligature → Ligature
  | .lamed _ => .lamed true
  | .ya _ => .ya true
  | .consonant _ => .consonant true
  | .orkhonI _ => .orkhonI true
  | l => l

/-- A character before the end of a ligature, which it begins or continues: the columns it
adds, and what then may come before it. -/
def part? (c : Char) : Ligature → Option (Int × Option Ligature)
  | .alef => if lams.contains c then some (0, none) else none
  | .lamed true => if c = '\u05d0' then some (0, none) else none
  | .ya true => if c = '\u1a17' then some (0, some .vowelYa) else none
  | .vowelYa => if c = '\u1a15' then some (0, none) else none
  | .consonant isJoined =>
    if c = consonantJoiner then some (1, some .boundConsonant)
    else if isJoined && consonants.contains c then some (0, none)
    else none
  | .boundConsonant => if consonants.contains c then some (-1, none) else none
  | .tone => if firstTones.contains c then some (0, none) else none
  | .orkhonI true => if c.toNat = 0x10c32 then some (0, none) else none
  | .subscript => if c = '\u17d2' then some (-1, none) else none
  | .vowelE =>
    if c.toNat = 0x16d63 || c.toNat = 0x16d69 then some (0, none)
    else if c.toNat = 0x16d67 then some (0, some .vowelAi)
    else if c.toNat = 0x16d68 then some (1, some .vowelE)
    else none
  | .vowelAi => if c.toNat = 0x16d63 then some (0, none) else none
  | _ => none

/-- A character before the end of a ligature, which it begins, continues or leaves open. -/
def before? (l : Ligature) (c : Char) : Option (Int × Option Ligature) :=
  match part? c l with
  | some part => some part
  | none =>
    if l = .alef then
      if isColumnless c && !parting.contains c then some (0, some l) else none
    else if l.isTransparent then
      if c = zeroWidthJoiner then some (0, some l.joined)
      else if ignorableMarks.contains c then some (0, some l)
      else none
    else none

end Ligature

end DataLink
