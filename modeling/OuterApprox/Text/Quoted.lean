import OuterApprox.Text.Combining
import OuterApprox.Text.Unassigned

/-!
# Quoted texts

A name written between double quotes so that the reader sees every character:
quotes and backslashes are escaped, control characters have a short name or a
hexadecimal code, and characters that would not show on their own (combining
marks, formatting characters, fillers, private use, unassigned code points) are
written by code as well. Every visible ASCII character but those two stands for itself.

## Main definitions

* `silentRanges`: Control and formatting characters, and separators.
* `fillerRanges`: Letters that are drawn as nothing.
* `privateRanges`: Code points left to private agreement.
* `isInvisible`: Characters written by code.
* `quoted`: A text between quotes.
-/

namespace OuterApprox

namespace Text

/-- Control and formatting characters, and separators other than the space. -/
def silentRanges : List CodeRange :=
  [(0x0, 0x1f), (0x7f, 0xa0), (0xad, 0xad), (0x600, 0x605), (0x61c, 0x61c), (0x6dd, 0x6dd),
   (0x70f, 0x70f), (0x890, 0x891), (0x8e2, 0x8e2), (0x1680, 0x1680), (0x180e, 0x180e),
   (0x2000, 0x200f), (0x2028, 0x202f), (0x205f, 0x2064), (0x2066, 0x206f), (0x3000, 0x3000),
   (0xfeff, 0xfeff), (0xfff9, 0xfffb), (0x110bd, 0x110bd), (0x110cd, 0x110cd),
   (0x13430, 0x1343f), (0x1bca0, 0x1bca3), (0x1d173, 0x1d17a), (0xe0001, 0xe0001),
   (0xe0020, 0xe007f)]

/-- Letters that stand for a missing part of a syllable and are drawn as
    nothing. -/
def fillerRanges : List CodeRange :=
  [(0x115f, 0x1160), (0x3164, 0x3164), (0xffa0, 0xffa0)]

/-- Code points left to private agreement. -/
def privateRanges : List CodeRange :=
  [(0xe000, 0xf8ff), (0xf0000, 0xffffd), (0x100000, 0x10fffd)]

/-- Whether a character would not show on its own. -/
def isInvisible (c : Char) : Bool :=
  isWithin silentRanges c || isWithin fillerRanges c || isWithin privateRanges c ||
    isCombining c || isUnassigned c

/-- The written form of one character inside quotes. -/
def quotedChar (c : Char) : String :=
  if c = '"' then "\\\""
  else if c = '\\' then "\\\\"
  else if ' ' ≤ c ∧ c ≤ '~' then c.toString
  else if c = '\n' then "\\n"
  else if c = '\r' then "\\r"
  else if c = '\t' then "\\t"
  else if c = '\x00' then "\\0"
  else if isInvisible c then
    "\\u\x7b" ++ String.ofList (Nat.toDigits 16 c.toNat) ++ "\x7d"
  else c.toString

/-- A text between double quotes. -/
def quoted (s : String) : String := "\"" ++ String.join (s.toList.map quotedChar) ++ "\""

end Text

end OuterApprox
