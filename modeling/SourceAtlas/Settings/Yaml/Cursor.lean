/-
# SourceAtlas.Settings.Yaml.Cursor — a place in a YAML text.

Where a YAML text is read matters as much as what is read: nesting is told by columns, and a key
must stand on one line.  A cursor holds what follows a place, with its line and its column.  Line
ends are the line feed, the next line control and the two separators of lines and paragraphs; a
byte order mark takes no column.
-/

namespace SourceAtlas.Settings.Yaml

/-- Whether a character ends a line. -/
def isBreak (c : Char) : Bool :=
  c == '\n' || c == '\x85' || c == '\u2028' || c == '\u2029'

/-- A space or a tab. -/
def isBlank (c : Char) : Bool :=
  c == ' ' || c == '\t'

/-- Whether a text is at its end or begins with a space or a line end. -/
def atSpace (text : List Char) : Bool :=
  text.head?.all fun c => c == ' ' || isBreak c

/-- Whether a text is at its end or begins with white space. -/
def atGap (text : List Char) : Bool :=
  text.head?.all fun c => isBlank c || isBreak c

/-- A place in a text: what follows it, how many characters precede it, and its line and column. -/
structure Cursor where
  rest : List Char
  index : Nat
  line : Nat
  column : Nat

namespace Cursor

/-- The start of a text. -/
def ofText (text : List Char) : Cursor := ⟨text, 0, 0, 0⟩

/-- The character at the place. -/
def peek? (cursor : Cursor) : Option Char :=
  cursor.rest.head?

/-- The place behind the next character. -/
def next (cursor : Cursor) : Cursor :=
  match cursor.rest with
  | [] => cursor
  | c :: rest =>
    if isBreak c then ⟨rest, cursor.index + 1, cursor.line + 1, 0⟩
    else if c == '\uFEFF' then { cursor with rest, index := cursor.index + 1 }
    else ⟨rest, cursor.index + 1, cursor.line, cursor.column + 1⟩

/-- The place so many characters on. -/
def advance : Nat → Cursor → Cursor
  | 0, cursor => cursor
  | n + 1, cursor => advance n cursor.next

/-- The longest run of characters of a class, and the place behind it. -/
def span (isMember : Char → Bool) (cursor : Cursor) : List Char × Cursor :=
  let run := cursor.rest.takeWhile isMember
  (run, cursor.advance run.length)

/-- The place behind a run of characters of a class. -/
def skip (isMember : Char → Bool) (cursor : Cursor) : Cursor :=
  (cursor.span isMember).2

/-- The place behind the spaces, but not beyond a column. -/
def skipSpacesTo (column : Nat) (cursor : Cursor) : Cursor :=
  let spaces := (cursor.rest.takeWhile (· == ' ')).length
  cursor.advance (min spaces (column - cursor.column))

/-- A line end at the place, as it is kept in a text, and the place behind it. -/
def lineBreak? (cursor : Cursor) : Option (Char × Cursor) :=
  match cursor.rest with
  | c :: _ =>
    if c == '\n' || c == '\x85' then some ('\n', cursor.next)
    else if isBreak c then some (c, cursor.next)
    else none
  | [] => none

/-- Whether one of the two marks between documents stands at the place: three dashes or dots with
a gap behind. -/
def atDocumentMark (mark : Char) (cursor : Cursor) : Bool :=
  cursor.rest.take 3 == [mark, mark, mark] && atGap (cursor.rest.drop 3)

/-- Whether any mark between documents stands at the place. -/
def atAnyDocumentMark (cursor : Cursor) : Bool :=
  cursor.atDocumentMark '-' || cursor.atDocumentMark '.'

end Cursor

end SourceAtlas.Settings.Yaml
