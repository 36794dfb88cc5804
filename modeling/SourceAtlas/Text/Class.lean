/-
# SourceAtlas.Text.Class — blanks, word characters and decimal digits.

The three character classes that the rest of the library asks about.  Each is the Unicode class,
with the ASCII part decided first, without the table.
-/
import SourceAtlas.Text.WordTable

namespace SourceAtlas.Text

/-- White space: the ASCII controls of layout and separation, the space, and the Unicode spaces and
line separators. -/
def isBlank (c : Char) : Bool :=
  let code := c.toNat
  (9 ≤ code && code ≤ 13) || (28 ≤ code && code ≤ 32) || code == 0x85 || code == 0xA0
    || code == 0x1680 || (0x2000 ≤ code && code ≤ 0x200A) || code == 0x2028 || code == 0x2029
    || code == 0x202F || code == 0x205F || code == 0x3000

/-- A letter, a number of any kind, or the low line. -/
def isWord (c : Char) : Bool :=
  if c.toNat < 128 then c.isAlphanum || c == '_' else inRanges wordRanges c

/-- The value of a decimal digit of any script. -/
def digitValue? (c : Char) : Option Nat :=
  if c.toNat < 128 then
    if c.isDigit then some (c.toNat - 48) else none
  else
    (decimalZeros.find? fun start => start ≤ c.toNat && c.toNat < start + 10).map (c.toNat - ·)

end SourceAtlas.Text
