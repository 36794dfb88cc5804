/-
# SourceAtlas.Text.CodeRange — closed ranges of code points.

A character class of the Unicode database is a sorted list of ranges; membership is membership in
one of them.
-/

namespace SourceAtlas.Text

/-- The code points from `first` to `last`, both included. -/
structure CodeRange where
  first : Nat
  last : Nat

/-- Whether the range holds the code point. -/
def CodeRange.contains (range : CodeRange) (code : Nat) : Bool :=
  decide (range.first ≤ code) && decide (code ≤ range.last)

/-- Whether one of the ranges holds the character. -/
def inRanges (ranges : List CodeRange) (c : Char) : Bool :=
  ranges.any (·.contains c.toNat)

end SourceAtlas.Text
