/-
# SourceAtlas.Text.Piece — cutting, trimming and replacing.

Texts are lists of characters here.  A trimmed text has lost the characters of a class at both
ends; a text is cut at every character of a class, so that there is one piece more than there are
cuts.
-/
import SourceAtlas.Text.Class

namespace SourceAtlas.Text

/-- The text without the characters of a class at its end. -/
def trimEndBy (drop : Char → Bool) (text : List Char) : List Char :=
  (text.reverse.dropWhile drop).reverse

/-- The text without the characters of a class at both ends. -/
def trimBy (drop : Char → Bool) (text : List Char) : List Char :=
  trimEndBy drop (text.dropWhile drop)

/-- The text without white space at both ends. -/
def trim (text : List Char) : List Char :=
  trimBy isBlank text

/-- The string without white space at both ends. -/
def trimmed (text : String) : String :=
  String.ofList (trim text.toList)

/-- The text cut at every character of a class. -/
def pieces (cut : Char → Bool) : List Char → List (List Char)
  | [] => [[]]
  | c :: rest =>
    if cut c then [] :: pieces cut rest
    else
      match pieces cut rest with
      | [] => [[c]]
      | piece :: more => (c :: piece) :: more

/-- The strings between the separators of a string. -/
def splitAt (separator : Char) (text : String) : List String :=
  (pieces (· == separator) text.toList).map String.ofList

/-- The text with one character put for another. -/
def replaceChar (old new : Char) (text : List Char) : List Char :=
  text.map fun c => if c == old then new else c

/-- Whether the string begins with the character. -/
def beginsWith (c : Char) (text : String) : Bool :=
  text.toList.head? == some c

/-- Whether the text occurs somewhere in the other. -/
def occursIn (needle : List Char) : List Char → Bool
  | [] => needle.isEmpty
  | c :: rest => needle.isPrefixOf (c :: rest) || occursIn needle rest

theorem pieces_ne_nil (cut : Char → Bool) (text : List Char) : pieces cut text ≠ [] := by
  induction text with
  | nil => simp [pieces]
  | cons c rest ih =>
    simp only [pieces]
    split
    · simp
    · split <;> simp

end SourceAtlas.Text
