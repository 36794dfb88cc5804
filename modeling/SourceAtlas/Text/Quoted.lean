/-
# SourceAtlas.Text.Quoted — text between quotes.

A text is quoted so that it can be told from what stands around it.  It stands between single
quotes, or between double quotes if it holds a single quote and no double one.  The quote in use,
the backslash and what has no glyph are written as escapes; an escape by number has two, four or
eight hexadecimal digits.
-/
import SourceAtlas.Text.PrintTable

namespace SourceAtlas.Text

/-- Whether the character is printed as itself. -/
def isPrintable (c : Char) : Bool :=
  if c.toNat < 127 then 32 ≤ c.toNat else !inRanges unprintableRanges c

/-- A code point as so many hexadecimal digits. -/
def hexDigits (width code : Nat) : List Char :=
  let digits := Nat.toDigits 16 code
  List.replicate (width - digits.length) '0' ++ digits

/-- A code point as an escape by number. -/
def numberEscape (code : Nat) : List Char :=
  if code < 0x100 then '\\' :: 'x' :: hexDigits 2 code
  else if code < 0x10000 then '\\' :: 'u' :: hexDigits 4 code
  else '\\' :: 'U' :: hexDigits 8 code

/-- A character as it stands between quotes. -/
def quoteChar (quote c : Char) : List Char :=
  if c == quote || c == '\\' then ['\\', c]
  else if c == '\n' then ['\\', 'n']
  else if c == '\r' then ['\\', 'r']
  else if c == '\t' then ['\\', 't']
  else if isPrintable c then [c]
  else numberEscape c.toNat

/-- The quote that a text is put between. -/
def quoteFor (text : List Char) : Char :=
  let single := Char.ofNat 0x27
  let double := Char.ofNat 0x22
  if text.contains single && !text.contains double then double else single

/-- A string between quotes. -/
def quoted (s : String) : String :=
  let quote := quoteFor s.toList
  String.ofList (quote :: s.toList.flatMap (quoteChar quote) ++ [quote])

end SourceAtlas.Text
