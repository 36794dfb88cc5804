/-
# SourceAtlas.Settings.Yaml.Token — the tokens of a YAML text.

Besides the marks that are written, the tokens tell where blocks begin and end, which is read off
the columns.  A key of a mapping is known only by the colon behind it, so what may turn out to be
a key is remembered, one candidate for each level of brackets; the candidate must stand on one line
with its colon and within 1024 characters of it.
-/
import SourceAtlas.Number.Reading
import SourceAtlas.Text.Utf8
import SourceAtlas.Settings.Yaml.Scalar

namespace SourceAtlas.Settings.Yaml

/-- An instruction in front of a document. -/
inductive Directive where
  | version (major : Nat)
  | handle (name meaning : String)
  | other
  deriving DecidableEq, Repr

/-- A token. -/
inductive Token where
  | directive (directive : Directive)
  | documentStart
  | documentEnd
  | blockList
  | blockMapping
  | blockClose
  | flowList
  | flowListClose
  | flowMapping
  | flowMappingClose
  | dash
  | comma
  | key
  | value
  | reference (name : String)
  | anchor (name : String)
  /-- A tag: its handle, if it is written with one, and what follows. -/
  | tag (handle : Option String) (suffix : String)
  | scalar (isPlain : Bool) (text : String)
  deriving DecidableEq, Repr

/-! ## Names, tags and directives -/

/-- What may stand in a name. -/
def isNamePart (c : Char) : Bool :=
  c.isAlphanum || c == '-' || c == '_'

/-- What may stand in the written form of a tag. -/
def isTagPart (c : Char) : Bool :=
  c.isAlphanum || "-;/?:@&=+$,_.!~*()[]%".contains c || c == singleQuote

/-- The name of an alias or an anchor; the place is behind its mark. -/
def anchorName (cursor : Cursor) : Except ReadFault (String × Cursor) :=
  let (name, next) := cursor.span isNamePart
  let isOver := atGap next.rest || next.peek?.any fun c => "?:,]%@\x60\x7d".contains c
  if name.isEmpty || !isOver then .error .malformed else .ok (String.ofList name, next)

/-- Bytes written as per cent signs and two hexadecimal digits each. -/
def escapedBytes : List Char → Option (List UInt8 × List Char)
  | '%' :: a :: b :: rest => do
    let byte ← Json.hexValue? [a, b]
    let (bytes, tail) ← escapedBytes rest
    return (UInt8.ofNat byte :: bytes, tail)
  | '%' :: _ => none
  | text => some ([], text)

/-- The characters that the written form of a tag stands for. -/
def unescapeTag : Nat → List Char → Option (List Char)
  | 0, _ => none
  | _, [] => some []
  | fuel + 1, c :: rest =>
    if c == '%' then do
      let (bytes, tail) ← escapedBytes (c :: rest)
      let chars ← (Text.Utf8.decode bytes).mapM id
      return chars ++ (← unescapeTag fuel tail)
    else (unescapeTag fuel rest).map (c :: ·)

/-- A tag as it is written, without a handle. -/
def tagText (cursor : Cursor) : Except ReadFault (String × Cursor) :=
  let (written, next) := cursor.span isTagPart
  match unescapeTag (written.length + 1) written with
  | some chars =>
    if written.isEmpty then .error .malformed else .ok (String.ofList chars, next)
  | none => .error .malformed

/-- The handle of a tag: an exclamation mark, or a name between two of them. -/
def tagHandle (cursor : Cursor) : Except ReadFault (String × Cursor) :=
  match cursor.rest with
  | '!' :: rest =>
    if rest.head? == some ' ' then .ok ("!", cursor.next)
    else
      let (name, behind) := cursor.next.span isNamePart
      if behind.peek? == some '!' then
        .ok (String.ofList (['!'] ++ name ++ ['!']), behind.next)
      else .error .malformed
  | _ => .error .malformed

/-- A tag; the place is at its exclamation mark. -/
def scanTag (cursor : Cursor) : Except ReadFault (Token × Cursor) := do
  let body := cursor.next
  let (token, last) ←
    if body.peek? == some '<' then do
      let (suffix, behind) ← tagText body.next
      if behind.peek? == some '>' then .ok (Token.tag none suffix, behind.next)
      else .error .malformed
    else if atGap body.rest then .ok (Token.tag none "!", body)
    else do
      let word := body.rest.takeWhile fun c => c != ' ' && !isBreak c
      let (handle, behind) ← if word.contains '!' then tagHandle cursor else .ok ("!", body)
      let (suffix, behind) ← tagText behind
      .ok (Token.tag (some handle) suffix, behind)
  if atSpace last.rest then .ok (token, last) else .error .malformed

/-- A number in a directive. -/
def directiveNumber (cursor : Cursor) : Except ReadFault (Nat × Cursor) :=
  let (digits, next) := cursor.span Char.isDigit
  if digits.isEmpty then .error .malformed
  else if Number.digitLimit < digits.length then .error .impossible
  else .ok (Number.ofDigits (digits.map (·.toNat - 48)), next)

/-- What a directive of a known name says; others are passed over. -/
def directiveBody (name : String) (cursor : Cursor) : Except ReadFault (Directive × Cursor) :=
  let body := cursor.skip (· == ' ')
  if name == "YAML" then do
    let (major, behind) ← directiveNumber body
    if behind.peek? == some '.' then
      let (_, last) ← directiveNumber behind.next
      if atSpace last.rest then .ok (.version major, last) else .error .malformed
    else .error .malformed
  else if name == "TAG" then do
    let (handle, behind) ← tagHandle body
    if behind.peek? == some ' ' then
      let (meaning, last) ← tagText (behind.skip (· == ' '))
      if atSpace last.rest then .ok (.handle handle meaning, last) else .error .malformed
    else .error .malformed
  else .ok (.other, cursor.skip (!isBreak ·))

/-- A directive; the place is at its per cent sign. -/
def scanDirective (cursor : Cursor) : Except ReadFault (Token × Cursor) := do
  let (name, behind) := cursor.next.span isNamePart
  if name.isEmpty || !atSpace behind.rest then .error .malformed
  else
    let (directive, last) ← directiveBody (String.ofList name) behind
    let last ← skipRestOfLine last
    .ok (.directive directive, last)

/-! ## The state of the scan -/

/-- What may turn out to be a key. -/
structure Candidate where
  /-- How many tokens precede it. -/
  position : Nat
  /-- Whether nothing else could stand there. -/
  isRequired : Bool
  cursor : Cursor

/-- What is known when the next token is looked for. -/
structure Scan where
  cursor : Cursor
  tokens : Array Token
  /-- One more than the column of the innermost block, or nothing outside all blocks. -/
  margin : Nat
  /-- The margins of the blocks around. -/
  outerMargins : List Nat
  /-- Whether a key without a mark may begin here. -/
  keyAllowed : Bool
  candidate : Option Candidate
  /-- The candidates of the levels of brackets around, one for each. -/
  outerCandidates : List (Option Candidate)

namespace Scan

/-- The state in which nothing has been read, at a place. -/
def ofCursor (cursor : Cursor) : Scan :=
  ⟨cursor, #[], 0, [], true, none, []⟩

/-- Whether the place is within brackets. -/
def inFlow (scan : Scan) : Bool :=
  !scan.outerCandidates.isEmpty

/-- The state with a token read, up to a place. -/
def emit (scan : Scan) (token : Token) (cursor : Cursor) : Scan :=
  { scan with tokens := scan.tokens.push token, cursor }

/-- The state without its candidate, which must not have been required. -/
def dropCandidate (scan : Scan) : Except ReadFault Scan :=
  if scan.candidate.any (·.isRequired) then .error .malformed
  else .ok { scan with candidate := none }

/-- The state in which the place is a candidate for a key, if keys are allowed. -/
def saveCandidate (scan : Scan) : Except ReadFault Scan :=
  if scan.keyAllowed then do
    let scan ← scan.dropCandidate
    -- at the margin of a block mapping nothing but a key can begin
    let isRequired := !scan.inFlow && scan.margin == scan.cursor.column + 1
    .ok { scan with candidate := some ⟨scan.tokens.size, isRequired, scan.cursor⟩ }
  else .ok scan

/-- Whether a candidate can no longer become a key. -/
def isStale (cursor : Cursor) (candidate : Candidate) : Bool :=
  candidate.cursor.line != cursor.line || 1024 < cursor.index - candidate.cursor.index

/-- The state without the candidates that have become too old. -/
def dropStale (scan : Scan) : Except ReadFault Scan :=
  let all := scan.candidate :: scan.outerCandidates
  if all.any fun slot => slot.any fun c => c.isRequired && isStale scan.cursor c then
    .error .malformed
  else
    let keep (slot : Option Candidate) : Option Candidate :=
      slot.filter fun c => !isStale scan.cursor c
    .ok { scan with
      candidate := keep scan.candidate
      outerCandidates := scan.outerCandidates.map keep }

/-- Leave the blocks whose margin is beyond a limit. -/
def closeBlocks (limit : Nat) : List Nat → Scan → Scan
  | [], scan => scan
  | outer :: more, scan =>
    if limit < scan.margin then
      closeBlocks limit more
        { scan with tokens := scan.tokens.push .blockClose, margin := outer, outerMargins := more }
    else scan

/-- Leave the blocks that a column does not belong to; within brackets columns say nothing. -/
def unwind (limit : Nat) (scan : Scan) : Scan :=
  if scan.inFlow then scan else closeBlocks limit scan.outerMargins scan

/-- Enter a block at a column, unless it is the one that the place is in. -/
def openBlock (column : Nat) (token : Token) (position : Nat) (scan : Scan) : Scan :=
  if scan.margin ≤ column then
    { scan with
      tokens := scan.tokens.insertIdxIfInBounds position token
      margin := column + 1
      outerMargins := scan.margin :: scan.outerMargins }
  else scan

/-- The state behind white space and comments. -/
def skipGap : Nat → Scan → Scan
  | 0, scan => scan
  | fuel + 1, scan =>
    let cursor := scan.cursor.skip (· == ' ')
    let cursor := if cursor.peek? == some '#' then cursor.skip (!isBreak ·) else cursor
    match cursor.lineBreak? with
    | none => { scan with cursor }
    | some (_, next) =>
      skipGap fuel { scan with cursor := next, keyAllowed := scan.keyAllowed || !scan.inFlow }

/-! ## The kinds of tokens -/

/-- The end of the text, or of a document. -/
def leaveDocument (scan : Scan) : Except ReadFault Scan := do
  let scan ← (scan.unwind 0).dropCandidate
  .ok { scan with keyAllowed := false }

/-- A directive. -/
def readDirective (scan : Scan) : Except ReadFault Scan := do
  let scan ← scan.leaveDocument
  let (token, next) ← scanDirective scan.cursor
  .ok (scan.emit token next)

/-- A mark between documents. -/
def readDocumentMark (token : Token) (scan : Scan) : Except ReadFault Scan := do
  let scan ← scan.leaveDocument
  .ok (scan.emit token (scan.cursor.advance 3))

/-- An opening bracket. -/
def readOpening (token : Token) (scan : Scan) : Except ReadFault Scan := do
  let scan ← scan.saveCandidate
  .ok ({ scan with
    candidate := none
    outerCandidates := scan.candidate :: scan.outerCandidates
    keyAllowed := true }.emit token scan.cursor.next)

/-- A closing bracket. -/
def readClosing (token : Token) (scan : Scan) : Except ReadFault Scan := do
  let scan ← scan.dropCandidate
  match scan.outerCandidates with
  | [] => .error .malformed
  | candidate :: outerCandidates =>
    .ok ({ scan with candidate, outerCandidates, keyAllowed := false }.emit token scan.cursor.next)

/-- A comma. -/
def readComma (scan : Scan) : Except ReadFault Scan := do
  let scan ← scan.dropCandidate
  .ok ({ scan with keyAllowed := true }.emit .comma scan.cursor.next)

/-- A block opened where a key may begin; within brackets there are no blocks. -/
def enterBlock (token : Token) (scan : Scan) : Except ReadFault Scan :=
  if scan.inFlow then .ok scan
  else if scan.keyAllowed then
    .ok (scan.openBlock scan.cursor.column token scan.tokens.size)
  else .error .malformed

/-- A dash before an element. -/
def readDash (scan : Scan) : Except ReadFault Scan := do
  let scan ← (← scan.enterBlock .blockList).dropCandidate
  .ok ({ scan with keyAllowed := true }.emit .dash scan.cursor.next)

/-- A question mark before a key. -/
def readKeyMark (scan : Scan) : Except ReadFault Scan := do
  let scan ← (← scan.enterBlock .blockMapping).dropCandidate
  .ok ({ scan with keyAllowed := !scan.inFlow }.emit .key scan.cursor.next)

/-- A colon before a value: the candidate, if there is one, becomes a key. -/
def readColon (scan : Scan) : Except ReadFault Scan :=
  match scan.candidate with
  | some candidate =>
    -- the key's mark goes in front of the key, which has been read already
    let scan := { scan with
      tokens := scan.tokens.insertIdxIfInBounds candidate.position .key
      candidate := none
      keyAllowed := false }
    let scan :=
      if scan.inFlow then scan
      else scan.openBlock candidate.cursor.column .blockMapping candidate.position
    .ok (scan.emit .value scan.cursor.next)
  | none => do
    let scan ← (← scan.enterBlock .blockMapping).dropCandidate
    .ok ({ scan with keyAllowed := !scan.inFlow }.emit .value scan.cursor.next)

/-- A token that may itself be a key or stand before one. -/
def readCandidate (read : Cursor → Except ReadFault (Token × Cursor)) (scan : Scan) :
    Except ReadFault Scan := do
  let scan ← scan.saveCandidate
  let (token, next) ← read scan.cursor
  .ok ({ scan with keyAllowed := false }.emit token next)

/-- An alias or an anchor. -/
def readName (token : String → Token) (scan : Scan) : Except ReadFault Scan :=
  scan.readCandidate fun cursor => (anchorName cursor.next).map fun (name, next) =>
    (token name, next)

/-- A text in quotes. -/
def readQuoted (quote : Char) (scan : Scan) : Except ReadFault Scan :=
  scan.readCandidate fun cursor =>
    (quoted quote (cursor.rest.length + 1) cursor.next).map fun (chars, next) =>
      (.scalar false (String.ofList chars), next)

/-- A block of lines. -/
def readBlock (folded : Bool) (scan : Scan) : Except ReadFault Scan := do
  let scan ← scan.dropCandidate
  let (chars, next) ← block folded scan.margin scan.cursor.next
  .ok ({ scan with keyAllowed := true }.emit (.scalar false (String.ofList chars)) next)

/-- A plain text. -/
def readPlain (scan : Scan) : Except ReadFault Scan := do
  let scan ← scan.saveCandidate
  let (chars, crossed, next) := plain scan.inFlow scan.margin scan.cursor
  .ok ({ scan with keyAllowed := crossed }.emit (.scalar true (String.ofList chars)) next)

/-- Whether a plain text may begin so. -/
def startsPlain (inFlow : Bool) (c : Char) (rest : List Char) : Bool :=
  if "-?:,[]\x7b\x7d#&*!|>%@\x60".contains c || c == singleQuote || c == doubleQuote then
    (c == '-' || (!inFlow && (c == '?' || c == ':'))) && !atGap rest
  else !(isBlank c || isBreak c)

/-- The next token, which begins with the given character. -/
def readToken (scan : Scan) (c : Char) (rest : List Char) : Except ReadFault Scan :=
  let atMargin := scan.cursor.column == 0
  let isMark := scan.inFlow || atGap rest
  if atMargin && c == '%' then scan.readDirective
  else if atMargin && scan.cursor.atDocumentMark '-' then scan.readDocumentMark .documentStart
  else if atMargin && scan.cursor.atDocumentMark '.' then scan.readDocumentMark .documentEnd
  else if c == '[' then scan.readOpening .flowList
  else if c == '\x7b' then scan.readOpening .flowMapping
  else if c == ']' then scan.readClosing .flowListClose
  else if c == '\x7d' then scan.readClosing .flowMappingClose
  else if c == ',' then scan.readComma
  else if c == '-' && atGap rest then scan.readDash
  else if c == '?' && isMark then scan.readKeyMark
  else if c == ':' && isMark then scan.readColon
  else if c == '*' then scan.readName .reference
  else if c == '&' then scan.readName .anchor
  else if c == '!' then scan.readCandidate scanTag
  else if c == '|' && !scan.inFlow then scan.readBlock false
  else if c == '>' && !scan.inFlow then scan.readBlock true
  else if c == singleQuote then scan.readQuoted singleQuote
  else if c == doubleQuote then scan.readQuoted doubleQuote
  else if startsPlain scan.inFlow c rest then scan.readPlain
  else .error .malformed

/-- The tokens up to the end of the text. -/
def run : Nat → Scan → Except ReadFault (Array Token)
  | 0, _ => .error .malformed
  | fuel + 1, scan => do
    let scan ← (scan.skipGap (scan.cursor.rest.length + 1)).dropStale
    let scan := scan.unwind (scan.cursor.column + 1)
    match scan.cursor.rest with
    | [] => return (← scan.leaveDocument).tokens
    | c :: rest => run fuel (← scan.readToken c rest)

end Scan

/-- Whether a character may stand in a YAML text at all. -/
def isPrintable (c : Char) : Bool :=
  let code := c.toNat
  c == '\t' || c == '\n' || c == '\r' || (0x20 ≤ code && code ≤ 0x7E) || code == 0x85
    || (0xA0 ≤ code && code ≤ 0xFFFD) || 0x10000 ≤ code

/-- The tokens of a text. -/
def Token.ofText (text : List Char) : Except ReadFault (List Token) :=
  if text.all isPrintable then
    let cursor := Cursor.ofText text
    -- a byte order mark in front of everything is not part of the text
    let start := if cursor.peek? == some '\uFEFF' then cursor.next else cursor
    ((Scan.ofCursor start).run (text.length + 1)).map Array.toList
  else .error .malformed

end SourceAtlas.Settings.Yaml
