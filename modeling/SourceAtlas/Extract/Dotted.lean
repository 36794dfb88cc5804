/-
# SourceAtlas.Extract.Dotted — the specifiers of Python text.

Two patterns find import statements: `from X import …` names `X`, and `import A, B as C` names `A`
and `B`.  Each is searched for in the whole text.  A statement begins where a line does, behind an
indent; relative names keep their leading dots.
-/
import SourceAtlas.Text.Pattern
import SourceAtlas.Text.Piece

namespace SourceAtlas.Extract

open Text

/-- The blanks that may stand within a line: space and tab. -/
def isInnerBlank (c : Char) : Bool :=
  c == ' ' || c == '\t'

/-- What may stand in a dotted name: word characters and dots. -/
def isDotted (c : Char) : Bool :=
  isWord c || c == '.'

/-- What may stand in the list of an import statement. -/
def isListed (c : Char) : Bool :=
  isDotted c || isInnerBlank c || c == ','

/-- A word at the start of a line, with blanks before and behind it. -/
def opening (word : List Char) : Pattern :=
  .sequence [.lineStart, .most isInnerBlank, .word word, .atLeastOne isInnerBlank]

/-- A statement `from X import …`, which names `X`. -/
def fromStatement : Search where
  lead := opening ['f', 'r', 'o', 'm']
  name := .atLeastOne isDotted
  tail := .sequence [.atLeastOne isInnerBlank, .word ['i', 'm', 'p', 'o', 'r', 't'], .wordEdge]

/-- A comment up to the end of the line. -/
def comment : Pattern :=
  .both (.one (· == '#')) (.most (· != '\n'))

/-- A statement `import …` on one line, which names its list. -/
def importStatement : Search where
  lead := opening ['i', 'm', 'p', 'o', 'r', 't']
  name := .both (.one isDotted) (.fewest isListed)
  tail := .sequence [.most isInnerBlank, .maybe comment, .lineEnd]

/-- White space, the word `as` in any case, and white space.  The long s is an s in another case. -/
def aliasMark : Pattern :=
  .sequence [.atLeastOne isBlank, .one fun c => c == 'a' || c == 'A',
    .one fun c => c == 's' || c == 'S' || c == 'ſ', .atLeastOne isBlank]

/-- The module named by an item of an import list; a blank item names none. -/
def listedName? (item : List Char) : Option (List Char) :=
  let name := trim (aliasMark.textBefore none (trim item))
  if name.isEmpty then none else some name

/-- The modules named by the items of an import list. -/
def listedNames (listing : List Char) : List (List Char) :=
  (pieces (· == ',') listing).filterMap listedName?

/-- The specifiers of Python text: those of its `from` statements, then those of its lists. -/
def dottedSpecifiers (text : List Char) : List (List Char) :=
  (fromStatement.names none text).map trim
    ++ (importStatement.names none text).flatMap listedNames

end SourceAtlas.Extract
