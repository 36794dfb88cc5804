/-
# SourceAtlas.Text.Case — the lower-case form of a text.

Lower-casing is the full Unicode mapping.  It works character by character with two exceptions:
the capital I with a dot becomes two characters, and a capital sigma becomes a final sigma where it
ends a word, which is decided by the nearest letters on both sides.
-/
import SourceAtlas.Text.CaseTable

namespace SourceAtlas.Text

/-- Whether the character is a letter with case that counts as a neighbour. -/
def isCased (c : Char) : Bool :=
  inRanges casedRanges c

/-- Whether the character is looked through when a neighbouring letter is sought. -/
def isCaseIgnorable (c : Char) : Bool :=
  inRanges caseIgnorableRanges c

/-- The one-to-one lower-case form of a character. -/
def lowerChar (c : Char) : Char :=
  if c.toNat < 128 then c.toLower
  else
    match caseRuns.find? (·.contains c.toNat) with
    | some run => Char.ofNat (Int.toNat (c.toNat + run.shift))
    | none => c

/-- Whether the first character that is not looked through is a letter with case. -/
def startsCased (text : List Char) : Bool :=
  match text.dropWhile isCaseIgnorable with
  | [] => false
  | c :: _ => isCased c

/-- The lower-case form of one character between its neighbours. -/
def lowerBetween (afterCased : Bool) (c : Char) (following : List Char) : List Char :=
  if c == 'İ' then ['i', '\u0307']
  else if c == 'Σ' then [if afterCased && !startsCased following then 'ς' else 'σ']
  else [lowerChar c]

/-- Lower-casing from a point on; `afterCased` says whether the nearest letter before is cased. -/
def lowerFrom (afterCased : Bool) : List Char → List Char
  | [] => []
  | c :: following =>
    lowerBetween afterCased c following
      ++ lowerFrom (if isCaseIgnorable c then afterCased else isCased c) following

/-- The lower-case form of a text. -/
def lowerChars (text : List Char) : List Char :=
  lowerFrom false text

/-- The lower-case form of a string. -/
def lower (text : String) : String :=
  String.ofList (lowerChars text.toList)

end SourceAtlas.Text
