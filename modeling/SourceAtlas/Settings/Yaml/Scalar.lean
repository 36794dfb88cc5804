/-
# SourceAtlas.Settings.Yaml.Scalar — the texts of a YAML document.

A text may be plain, in quotes, or a block of indented lines.  In the first two a single line end
is read as a space and further ones are kept; in a block the style decides.
-/
import SourceAtlas.Settings.Json
import SourceAtlas.Settings.Yaml.Cursor

namespace SourceAtlas.Settings.Yaml

/-- What line ends in a row stand for: a single line feed is a space, a line feed before others is
dropped. -/
def foldBreaks (first : Char) (more : List Char) : List Char :=
  if first != '\n' then first :: more
  else if more.isEmpty then [' ']
  else more

/-! ## Plain texts -/

/-- What ends a plain text within brackets. -/
def isFlowMark (c : Char) : Bool :=
  c == ',' || c == '[' || c == ']' || c == '\x7b' || c == '\x7d'

/-- The length of the word that a plain text begins with. -/
def wordLength (inFlow : Bool) : List Char → Nat
  | [] => 0
  | c :: rest =>
    if isBlank c || isBreak c then 0
    else if c == ':' && (atGap rest || (inFlow && rest.head?.any isFlowMark)) then 0
    else if inFlow && (isFlowMark c || c == '?') then 0
    else wordLength inFlow rest + 1

/-- The line ends and spaces at a place, up to a mark between documents; the last part tells
whether such a mark was met. -/
def breaksAndSpaces : Nat → Cursor → List Char × Cursor × Bool
  | 0, cursor => ([], cursor, false)
  | fuel + 1, cursor =>
    let cursor := cursor.skip (· == ' ')
    match cursor.lineBreak? with
    | none => ([], cursor, false)
    | some (c, next) =>
      if next.atAnyDocumentMark then ([c], next, true)
      else
        let (more, last, met) := breaksAndSpaces fuel next
        (c :: more, last, met)

/-- What stands between two words of a plain text, whether it holds a line end, and the place behind
it.  Nothing means that the text is over. -/
def plainGap (cursor : Cursor) : List Char × Bool × Cursor :=
  let (spaces, behind) := cursor.span (· == ' ')
  match behind.lineBreak? with
  | none => (spaces, false, behind)
  | some (first, next) =>
    if next.atAnyDocumentMark then ([], true, next)
    else
      let (more, last, met) := breaksAndSpaces (next.rest.length + 1) next
      if met then ([], true, last) else (foldBreaks first more, true, last)

/-- The words of a plain text from a place on, whether a line end follows the last one, and the
place behind.  Outside brackets the text ends at a line that is indented less than the margin. -/
def plainFrom (inFlow : Bool) (margin : Nat) : Nat → Bool → Cursor → List Char × Bool × Cursor
  | 0, crossed, cursor => ([], crossed, cursor)
  | fuel + 1, crossed, cursor =>
    let length := wordLength inFlow cursor.rest
    if length = 0 then ([], crossed, cursor)
    else
      let word := cursor.rest.take length
      let (gap, crossed, next) := plainGap (cursor.advance length)
      if gap.isEmpty || next.peek? == some '#' || (!inFlow && next.column < margin) then
        (word, crossed, next)
      else
        let (more, crossed, last) := plainFrom inFlow margin fuel crossed next
        (if more.isEmpty then word else word ++ gap ++ more, crossed, last)

/-- A plain text, whether a line end follows it, and the place behind it. -/
def plain (inFlow : Bool) (margin : Nat) (cursor : Cursor) : List Char × Bool × Cursor :=
  plainFrom inFlow margin (cursor.rest.length + 1) false cursor

/-! ## Texts in quotes -/

/-- The double quote. -/
def doubleQuote : Char := Char.ofNat 0x22

/-- The single quote. -/
def singleQuote : Char := Char.ofNat 0x27

/-- The line ends in a quoted text, with the blanks around them; a mark between documents may not
stand there. -/
def quotedBreaks : Nat → Cursor → Except ReadFault (List Char × Cursor)
  | 0, _ => .error .malformed
  | fuel + 1, cursor =>
    if cursor.atAnyDocumentMark then .error .malformed
    else
      let cursor := cursor.skip isBlank
      match cursor.lineBreak? with
      | none => .ok ([], cursor)
      | some (c, next) => do
        let (more, last) ← quotedBreaks fuel next
        .ok (c :: more, last)

/-- The white space between two words of a quoted text, and the place behind it. -/
def quotedGap (cursor : Cursor) : Except ReadFault (List Char × Cursor) :=
  let (blanks, behind) := cursor.span isBlank
  match behind.lineBreak? with
  | none => .ok (blanks, behind)
  | some (first, next) => do
    let (more, last) ← quotedBreaks (next.rest.length + 1) next
    .ok (foldBreaks first more, last)

/-- The character of an escape of one letter. -/
def letterEscape? (c : Char) : Option Char :=
  match c with
  | '0' => some '\x00'
  | 'a' => some '\x07'
  | '\t' => some '\t'
  | 'v' => some '\x0b'
  | 'e' => some '\x1b'
  | ' ' => some ' '
  | 'N' => some '\x85'
  | '_' => some '\xa0'
  | 'L' => some '\u2028'
  | 'P' => some '\u2029'
  | _ => Json.shortEscape? c

/-- The character of a code point. -/
def codePoint (code : Nat) : Except ReadFault Char :=
  if code < 0x110000 then
    .ok (if 0xD800 ≤ code && code < 0xE000 then '\uFFFD' else Char.ofNat code)
  else if code < 0x80000000 then .error .impossible
  else .error .outOfRange

/-- What an escape stands for; the place is behind the backslash. -/
def quotedEscape (cursor : Cursor) : Except ReadFault (List Char × Cursor) :=
  match cursor.rest with
  | [] => .error .malformed
  | c :: rest =>
    let digits (width : Nat) : Except ReadFault (List Char × Cursor) :=
      if rest.length < width then .error .malformed
      else
        match Json.hexValue? (rest.take width) with
        | some code => do
          let d ← codePoint code
          .ok ([d], cursor.advance (width + 1))
        | none => .error .malformed
    if c == 'x' then digits 2
    else if c == 'U' then digits 8
    else if c == 'u' then
      match Json.unicodeEscape? rest with
      | some (d, tail) => .ok ([d], cursor.advance (cursor.rest.length - tail.length))
      | none => .error .malformed
    else
      match letterEscape? c with
      | some d => .ok ([d], cursor.next)
      | none =>
        match cursor.lineBreak? with
        | some (_, next) => quotedBreaks (next.rest.length + 1) next
        | none => .error .malformed

/-- The characters of a quoted text up to its closing quote, and the place behind that.  Within
double quotes a backslash begins an escape, within single quotes two quotes stand for one. -/
def quoted (quote : Char) : Nat → Cursor → Except ReadFault (List Char × Cursor)
  | 0, _ => .error .malformed
  | fuel + 1, cursor => do
    let (part, next) ←
      match cursor.rest with
      | [] => .error .malformed
      | c :: rest =>
        if c == quote then
          if c == singleQuote && rest.head? == some singleQuote then
            .ok (some [singleQuote], cursor.advance 2)
          else .ok (none, cursor.next)
        else if c == '\\' && quote == doubleQuote then
          (quotedEscape cursor.next).map fun (chars, next) => (some chars, next)
        else if isBlank c || isBreak c then
          (quotedGap cursor).map fun (chars, next) => (some chars, next)
        else .ok (some [c], cursor.next)
    match part with
    | none => .ok ([], next)
    | some chars =>
      let (more, last) ← quoted quote fuel next
      .ok (chars ++ more, last)

/-! ## Blocks of lines -/

/-- What becomes of the line ends behind a block. -/
inductive Chomping where
  | strip
  | clip
  | keep
  deriving DecidableEq, Repr

/-- The chomping that a sign asks for. -/
def chomping? (c : Char) : Option Chomping :=
  if c == '+' then some .keep else if c == '-' then some .strip else none

/-- The head of a block: its chomping and, if it is given, its indentation, in either order. -/
def blockHead (cursor : Cursor) : Except ReadFault (Chomping × Option Nat × Cursor) :=
  let signed (cursor : Cursor) : Option Chomping × Cursor :=
    match cursor.peek?.bind chomping? with
    | some chomping => (some chomping, cursor.next)
    | none => (none, cursor)
  let counted (cursor : Cursor) : Option Nat × Cursor :=
    match cursor.peek? with
    | some c => if c.isDigit then (some (c.toNat - 48), cursor.next) else (none, cursor)
    | none => (none, cursor)
  let (first, cursor) := signed cursor
  let (indent, cursor) := counted cursor
  let (second, cursor) :=
    if first.isNone && indent.isSome then signed cursor else (none, cursor)
  if indent == some 0 || !atSpace cursor.rest then .error .malformed
  else .ok ((first <|> second).getD .clip, indent, cursor)

/-- The place behind a line that holds nothing but a comment. -/
def skipRestOfLine (cursor : Cursor) : Except ReadFault Cursor :=
  let cursor := cursor.skip (· == ' ')
  let cursor := if cursor.peek? == some '#' then cursor.skip (!isBreak ·) else cursor
  match cursor.peek? with
  | none => .ok cursor
  | some c => if isBreak c then .ok cursor.next else .error .malformed

/-- The empty lines in front of a block whose indentation is not given: their line ends, and the
greatest column that their spaces reach. -/
def blockStart : Nat → Cursor → List Char × Nat × Cursor
  | 0, cursor => ([], 0, cursor)
  | fuel + 1, cursor =>
    let cursor := cursor.skip (· == ' ')
    match cursor.lineBreak? with
    | none => ([], cursor.column, cursor)
    | some (c, next) =>
      let (more, column, last) := blockStart fuel next
      (c :: more, max cursor.column column, last)

/-- The empty lines within a block: their line ends, and the first place behind them, at most at the
block's column. -/
def blockBreaks (indent : Nat) : Nat → Cursor → List Char × Cursor
  | 0, cursor => ([], cursor)
  | fuel + 1, cursor =>
    let cursor := cursor.skipSpacesTo indent
    match cursor.lineBreak? with
    | none => ([], cursor)
    | some (c, next) =>
      let (more, last) := blockBreaks indent fuel next
      (c :: more, last)

/-- The lines of a block: its text without the last line end, that line end, the line ends behind it
and the place behind all.  In a folded block a line feed between two lines that do not begin with
a blank is a space, or nothing before an empty line. -/
def blockLines (folded : Bool) (indent : Nat) :
    Nat → List Char → Cursor → List Char × List Char × List Char × Cursor
  | 0, breaks, cursor => ([], [], breaks, cursor)
  | fuel + 1, breaks, cursor =>
    if cursor.column != indent || cursor.rest.isEmpty then ([], [], breaks, cursor)
    else
      let (line, behind) := cursor.span (!isBreak ·)
      let (lineEnd, next) :=
        match behind.lineBreak? with
        | some (c, next) => ([c], next)
        | none => ([], behind)
      let (more, place) := blockBreaks indent (next.rest.length + 1) next
      if place.column != indent || place.rest.isEmpty then
        (breaks ++ line, lineEnd, more, place)
      else
        let isTight := !cursor.peek?.any isBlank && !place.peek?.any isBlank
        let joint :=
          if folded && lineEnd == ['\n'] && isTight then if more.isEmpty then [' '] else []
          else lineEnd
        let (body, lastEnd, tail, last) := blockLines folded indent fuel more place
        (breaks ++ line ++ joint ++ body, lastEnd, tail, last)

/-- A block of lines; the place is behind the sign that opens it.  Without a given indentation the
block is indented as its first line that is not empty, and more than what it belongs to. -/
def block (folded : Bool) (margin : Nat) (cursor : Cursor) :
    Except ReadFault (List Char × Cursor) := do
  let (chomping, given, cursor) ← blockHead cursor
  let cursor ← skipRestOfLine cursor
  let least := max margin 1
  let fuel := cursor.rest.length + 1
  let (indent, breaks, cursor) :=
    match given with
    | some count =>
      let indent := least + count - 1
      (indent, blockBreaks indent fuel cursor)
    | none =>
      let (breaks, column, cursor) := blockStart fuel cursor
      (max least column, breaks, cursor)
  let (body, lineEnd, tail, last) := blockLines folded indent fuel breaks cursor
  let kept :=
    match chomping with
    | .strip => []
    | .clip => lineEnd
    | .keep => lineEnd ++ tail
  .ok (body ++ kept, last)

end SourceAtlas.Settings.Yaml
