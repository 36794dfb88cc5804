/-
# SourceAtlas.Settings.Toml — reading TOML.

TOML 1.0, statement by statement.  The tables made so far are one nested mapping.  Which of them
may still be opened is kept beside it, by path: a table that was declared, or opened by dotted keys
in an earlier section, is not declared again, and what an inline table or an array holds is closed
for good.
-/
import SourceAtlas.Number.Reading
import SourceAtlas.Settings.Calendar
import SourceAtlas.Settings.Json

namespace SourceAtlas.Settings.Toml

/-! ## Characters -/

/-- The blanks within a line. -/
def isInnerBlank (c : Char) : Bool :=
  c == ' ' || c == '\t'

/-- The blanks between the elements of an array. -/
def isAnyBlank (c : Char) : Bool :=
  isInnerBlank c || c == '\n'

/-- The controls that may stand in no text of one line. -/
def isControl (c : Char) : Bool :=
  (c.toNat < 32 && c != '\t') || c.toNat == 127

/-- The controls that may stand in no text of several lines. -/
def isHardControl (c : Char) : Bool :=
  isControl c && c != '\n'

/-- What may stand in a key without quotes. -/
def isBareKey (c : Char) : Bool :=
  c.isAlphanum || c == '-' || c == '_'

/-- The double quote. -/
def doubleQuote : Char := Char.ofNat 0x22

/-- The single quote. -/
def singleQuote : Char := Char.ofNat 0x27

/-- The text after its blanks. -/
def skipBlanks (text : List Char) : List Char :=
  text.dropWhile isInnerBlank

/-- The text after a comment, if it begins with one. -/
def skipComment (text : List Char) : Except ReadFault (List Char) :=
  match text with
  | '#' :: rest =>
    if (rest.takeWhile (· != '\n')).any isControl then .error .malformed
    else .ok (rest.dropWhile (· != '\n'))
  | _ => .ok text

/-- The text after blanks, line ends and comments. -/
def skipFill : Nat → List Char → Except ReadFault (List Char)
  | 0, text => .ok text
  | fuel + 1, text => do
    let rest ← skipComment (text.dropWhile isAnyBlank)
    if rest.length = text.length then .ok rest else skipFill fuel rest

/-- The text after all blanks, line ends and comments. -/
def skipAllFill (text : List Char) : Except ReadFault (List Char) :=
  skipFill (text.length + 1) text

/-! ## Strings -/

/-- The character of a code point that is one. -/
def scalar? (code : Nat) : Option Char :=
  if code < 0xD800 || (0xE000 ≤ code && code < 0x110000) then some (Char.ofNat code) else none

/-- A character written as so many hexadecimal digits. -/
def hexEscape (width : Nat) (text : List Char) : Except ReadFault (List Char × List Char) :=
  let digits := text.take width
  match if digits.length = width then (Json.hexValue? digits).bind scalar? else none with
  | some c => .ok ([c], text.drop width)
  | none => .error .malformed

/-- What an escape stands for; the text starts behind the backslash.  In a text of several lines a
backslash at the end of a line takes away the line end and the blanks after it. -/
def escape (multiline : Bool) (text : List Char) : Except ReadFault (List Char × List Char) :=
  match text with
  | [] => .error .malformed
  | c :: rest =>
    if multiline && c == '\n' then .ok ([], rest.dropWhile isAnyBlank)
    else if multiline && isInnerBlank c then
      match skipBlanks rest with
      | [] => .ok ([], [])
      | '\n' :: more => .ok ([], more.dropWhile isAnyBlank)
      | _ => .error .malformed
    else if c == 'u' then hexEscape 4 rest
    else if c == 'U' then hexEscape 8 rest
    else if c == '/' then .error .malformed
    else
      match Json.shortEscape? c with
      | some d => .ok ([d], rest)
      | none => .error .malformed

/-- Whether a text begins with three of a character. -/
def startsTriple (quote : Char) (text : List Char) : Bool :=
  [quote, quote, quote].isPrefixOf text

/-- The characters of a string with escapes, up to its closing quotes. -/
def basicBody (multiline : Bool) : Nat → List Char → Except ReadFault (List Char × List Char)
  | 0, _ => .error .malformed
  | _, [] => .error .malformed
  | fuel + 1, c :: rest =>
    if c == doubleQuote && !multiline then .ok ([], rest)
    else if c == doubleQuote && startsTriple doubleQuote (c :: rest) then .ok ([], rest.drop 2)
    else if c == '\\' then do
      let (chars, more) ← escape multiline rest
      let (body, tail) ← basicBody multiline fuel more
      .ok (chars ++ body, tail)
    else if (if multiline then isHardControl c else isControl c) then .error .malformed
    else do
      let (body, tail) ← basicBody multiline fuel rest
      .ok (c :: body, tail)

/-- The characters of a string without escapes, up to its closing quote. -/
def literalBody (text : List Char) : Except ReadFault (List Char × List Char) :=
  let body := text.takeWhile (· != singleQuote)
  match text.dropWhile (· != singleQuote) with
  | [] => .error .malformed
  | _ :: rest => if body.any isControl then .error .malformed else .ok (body, rest)

/-- The characters up to three single quotes. -/
def untilTriple : List Char → Option (List Char × List Char)
  | [] => none
  | c :: rest =>
    if startsTriple singleQuote (c :: rest) then some ([], rest.drop 2)
    else (untilTriple rest).map fun (body, tail) => (c :: body, tail)

/-- At most two more quotes right behind a string of several lines belong to it. -/
def extraQuotes (quote : Char) (body text : List Char) : List Char × List Char :=
  let extra := (text.takeWhile (· == quote)).take 2
  (body ++ extra, text.drop extra.length)

/-- The text without a line end in front. -/
def dropLineEnd : List Char → List Char
  | '\n' :: rest => rest
  | text => text

/-- A string; the text starts with its opening quote. -/
def string (text : List Char) : Except ReadFault (List Char × List Char) :=
  if startsTriple doubleQuote text then do
    let (body, rest) ← basicBody true (text.length + 1) (dropLineEnd (text.drop 3))
    .ok (extraQuotes doubleQuote body rest)
  else if startsTriple singleQuote text then
    match untilTriple (dropLineEnd (text.drop 3)) with
    | some (body, rest) =>
      if body.any isHardControl then .error .malformed
      else .ok (extraQuotes singleQuote body rest)
    | none => .error .malformed
  else if text.head? == some doubleQuote then basicBody false (text.length + 1) (text.drop 1)
  else literalBody (text.drop 1)

/-! ## Keys -/

/-- The path of a table or a value. -/
abbrev Key := List String

/-- One part of a key. -/
def keyPart (text : List Char) : Except ReadFault (String × List Char) :=
  match text with
  | [] => .error .malformed
  | c :: rest =>
    if isBareKey c then
      .ok (String.ofList (text.takeWhile isBareKey), text.dropWhile isBareKey)
    else do
      let (body, tail) ←
        if c == doubleQuote then basicBody false (text.length + 1) rest
        else if c == singleQuote then literalBody rest
        else .error .malformed
      .ok (String.ofList body, tail)

/-- A key: parts with dots between them, and blanks around the dots. -/
def key : Nat → List Char → Except ReadFault (Key × List Char)
  | 0, _ => .error .malformed
  | fuel + 1, text => do
    let (part, rest) ← keyPart text
    match skipBlanks rest with
    | '.' :: more =>
      let (parts, tail) ← key fuel (skipBlanks more)
      .ok (part :: parts, tail)
    | tail => .ok ([part], tail)

/-! ## Numbers and moments -/

/-- The text after digits of a class with single low lines between them, and the digits; at least
one digit is needed. -/
def digitRun? (isDigit : Char → Bool) : List Char → Option (List Char × List Char)
  | [] => none
  | c :: '_' :: rest =>
    if isDigit c then
      match digitRun? isDigit rest with
      | some (digits, tail) => some (c :: digits, tail)
      | none => some ([c], '_' :: rest)
    else none
  | c :: rest =>
    if isDigit c then
      match digitRun? isDigit rest with
      | some (digits, tail) => some (c :: digits, tail)
      | none => some ([c], rest)
    else none

/-- A natural in another base than ten, if the text starts with the mark of one. -/
def basedNumber? (text : List Char) : Option (Nat × List Char) :=
  let read (base : Nat) (isDigit : Char → Bool) (rest : List Char) : Option (Nat × List Char) :=
    (digitRun? isDigit rest).map fun (digits, tail) =>
      (digits.foldl (fun n c => n * base + (Json.hexDigit? c).getD 0) 0, tail)
  match text with
  | '0' :: 'x' :: rest => read 16 (fun c => (Json.hexDigit? c).isSome) rest
  | '0' :: 'b' :: rest => read 2 (fun c => c == '0' || c == '1') rest
  | '0' :: 'o' :: rest => read 8 (fun c => '0' ≤ c && c ≤ '7') rest
  | _ => none

/-- The value of ASCII digits. -/
def digitsValue (digits : List Char) : Nat :=
  Number.ofDigits (digits.map (·.toNat - 48))

/-- The decimal places of a number, if they follow. -/
def places (text : List Char) : List Char × List Char :=
  match text with
  | '.' :: rest => (digitRun? Char.isDigit rest).getD ([], text)
  | _ => ([], text)

/-- The exponent of a number, if it follows. -/
def exponent (text : List Char) : Option Int × List Char :=
  match text with
  | e :: rest =>
    if e == 'e' || e == 'E' then
      let (negative, body) := Number.takeSign rest
      match digitRun? Char.isDigit body with
      | some (digits, tail) => (some (Number.signed negative (digitsValue digits)), tail)
      | none => (none, text)
    else (none, text)
  | [] => (none, text)

/-- The integer part of a decimal number: a zero, or digits that do not start with one. -/
def wholePart? (text : List Char) : Option (List Char × List Char) :=
  match text with
  | '0' :: rest => some (['0'], rest)
  | _ => digitRun? Char.isDigit text

/-- A decimal number, if the text starts with one. -/
def decimalNumber? (text : List Char) : Option (Except ReadFault (Value × List Char)) :=
  let (negative, body) := Number.takeSign text
  (wholePart? body).map fun (whole, rest) =>
    let (fraction, rest) := places rest
    let (power, rest) := exponent rest
    if fraction.isEmpty && power.isNone then
      if Number.digitLimit < whole.length then .error .impossible
      else .ok (.int (Number.signed negative (digitsValue whole)), rest)
    else
      .ok (.float (Number.ofDecimal negative (digitsValue (whole ++ fraction))
        (power.getD 0 - fraction.length)), rest)

/-- The words that stand for values; a word may go on with anything. -/
def words : List (List Char × Value) :=
  [("true".toList, .bool true), ("false".toList, .bool false),
    ("inf".toList, .float Number.infinity), ("+inf".toList, .float Number.infinity),
    ("-inf".toList, .float (-Number.infinity)), ("nan".toList, .float Number.notANumber),
    ("+nan".toList, .float Number.notANumber), ("-nan".toList, .float Number.notANumber)]

/-- Two digits within bounds. -/
def twoDigits? (low high : Nat) : List Char → Option (Nat × List Char)
  | a :: b :: rest =>
    let n := digitsValue [a, b]
    if a.isDigit && b.isDigit && low ≤ n && n ≤ high then some (n, rest) else none
  | _ => none

/-- The text behind the decimal places of a second, if any follow. -/
def skipFraction (text : List Char) : List Char :=
  match text with
  | '.' :: d :: rest => if d.isDigit then rest.dropWhile Char.isDigit else text
  | _ => text

/-- The text behind a time of day. -/
def skipTime? (text : List Char) : Option (List Char) := do
  let (_, rest) ← twoDigits? 0 23 text
  let (_, rest) ← twoDigits? 0 59 (← expect? ':' rest)
  let (_, rest) ← twoDigits? 0 59 (← expect? ':' rest)
  return skipFraction rest

/-- The text behind a time zone, if one follows. -/
def skipZone (text : List Char) : List Char :=
  match text with
  | c :: rest =>
    if c == 'Z' || c == 'z' then rest
    else if c == '+' || c == '-' then
      (do
        let (_, rest) ← twoDigits? 0 23 rest
        let (_, rest) ← twoDigits? 0 59 (← expect? ':' rest)
        return rest).getD text
    else text
  | [] => text

/-- The text behind a time of day that is joined to a date, if one follows. -/
def skipDayTime (text : List Char) : List Char :=
  match text with
  | c :: rest =>
    if c == 'T' || c == 't' || c == ' ' then
      match skipTime? rest with
      | some tail => skipZone tail
      | none => text
    else text
  | [] => text

/-- A date, if the text starts with one, and what follows. -/
def date? (text : List Char) : Option (Nat × Nat × Nat × List Char) := do
  let (century, rest) ← twoDigits? 0 99 text
  let (year, rest) ← twoDigits? 0 99 rest
  let (month, rest) ← twoDigits? 1 12 (← expect? '-' rest)
  let (day, rest) ← twoDigits? 1 31 (← expect? '-' rest)
  return (century * 100 + year, month, day, rest)

/-- What the text between two points spells. -/
def momentOf (text rest : List Char) : Value :=
  .moment (String.ofList (text.take (text.length - rest.length)))

/-- A date or a time, if the text starts with one. -/
def moment? (text : List Char) : Option (Except ReadFault (Value × List Char)) :=
  match date? text with
  | some (year, month, day, rest) =>
    let tail := skipDayTime rest
    some (if isDate year month day then .ok (momentOf text tail, tail) else .error .malformed)
  | none => (skipTime? text).map fun tail => .ok (momentOf text tail, tail)

/-- A number, a moment or a word. -/
def plain (text : List Char) : Except ReadFault (Value × List Char) :=
  match words.find? fun word => word.1.isPrefixOf text with
  | some (word, v) => .ok (v, text.drop word.length)
  | none =>
    match moment? text with
    | some result => result
    | none =>
      match basedNumber? text with
      | some (n, rest) => .ok (.int n, rest)
      | none => (decimalNumber? text).getD (.error .malformed)

/-! ## Nested tables -/

/-- The entries of a mapping. -/
abbrev Table := List (Value × Value)

/-- Change the table that a key leads to; tables on the way are made if need be.  An array of
tables stands for its last one, if `throughLists` allows. -/
def changeTable (throughLists : Bool) (change : Table → Option Table) : Key → Table → Option Table
  | [], table => change table
  | part :: rest, table =>
    let go (inner : Table) : Option Table := changeTable throughLists change rest inner
    match Value.lookup? part table with
    | none => (go []).map fun inner => Value.put (.text part) (.mapping inner) table
    | some (.mapping inner) =>
      (go inner).map fun inner => Value.put (.text part) (.mapping inner) table
    | some (.list items) =>
      match throughLists, items.reverse with
      | true, .mapping inner :: before =>
        (go inner).map fun inner =>
          Value.put (.text part) (.list (before.reverse ++ [.mapping inner])) table
      | _, _ => none
    | some _ => none

/-- Put a value under a name that is not there yet. -/
def putNew (name : String) (v : Value) (table : Table) : Option Table :=
  if (Value.lookup? name table).isSome then none else some (Value.put (.text name) v table)

/-- Put a value under a key, in tables that may be made for it. -/
def putAt (throughLists : Bool) (key : Key) (v : Value) (table : Table) : Option Table :=
  match key.getLast? with
  | some name => changeTable throughLists (putNew name v) key.dropLast table
  | none => none

/-- Add a table to the array of tables under a name. -/
def appendTable (name : String) (table : Table) : Option Table :=
  match Value.lookup? name table with
  | none => some (Value.put (.text name) (.list [.mapping []]) table)
  | some (.list items) => some (Value.put (.text name) (.list (items ++ [.mapping []])) table)
  | some _ => none

/-! ## Values -/

/-- Whether a value holds others, and is therefore closed once it is there. -/
def isClosing : Value → Bool
  | .mapping _ => true
  | .list _ => true
  | _ => false

/-- Whether a key, or a key above it, is among closed ones. -/
def isUnder (closed : List Key) (key : Key) : Bool :=
  closed.any fun above => !above.isEmpty && above.isPrefixOf key

mutual

/-- A value. -/
def value (fuel : Nat) (text : List Char) : Except ReadFault (Value × List Char) :=
  match fuel, text with
  | 0, _ => .error .malformed
  | _, [] => .error .malformed
  | fuel + 1, c :: rest =>
    if c == doubleQuote || c == singleQuote then do
      let (body, tail) ← string text
      .ok (.text (String.ofList body), tail)
    else if c == '[' then do
      let body ← skipAllFill rest
      match body with
      | ']' :: tail => .ok (.list [], tail)
      | _ =>
        let (items, tail) ← elements fuel body
        .ok (.list items, tail)
    else if c == '\x7b' then
      match skipBlanks rest with
      | '\x7d' :: tail => .ok (.mapping [], tail)
      | body => do
        let (table, tail) ← members fuel [] [] body
        .ok (.mapping table, tail)
    else plain text

/-- The elements of an array, from the first one to the closing bracket, before which a comma may
stand. -/
def elements (fuel : Nat) (text : List Char) : Except ReadFault (List Value × List Char) :=
  match fuel with
  | 0 => .error .malformed
  | fuel + 1 => do
    let (item, rest) ← value fuel text
    let rest ← skipAllFill rest
    match rest with
    | ']' :: tail => .ok ([item], tail)
    | ',' :: more =>
      let more ← skipAllFill more
      match more with
      | ']' :: tail => .ok ([item], tail)
      | _ =>
        let (items, tail) ← elements fuel more
        .ok (item :: items, tail)
    | _ => .error .malformed

/-- A key, an equals sign and a value. -/
def keyValue (fuel : Nat) (text : List Char) : Except ReadFault (Key × Value × List Char) :=
  match fuel with
  | 0 => .error .malformed
  | fuel + 1 => do
    let (k, rest) ← key (text.length + 1) text
    match rest with
    | '=' :: rest =>
      let (v, tail) ← value fuel (skipBlanks rest)
      .ok (k, v, tail)
    | _ => .error .malformed

/-- The members of an inline table, from the first one to the closing brace. -/
def members (fuel : Nat) (closed : List Key) (table : Table) (text : List Char) :
    Except ReadFault (Table × List Char) :=
  match fuel with
  | 0 => .error .malformed
  | fuel + 1 => do
    let (k, v, rest) ← keyValue fuel text
    if isUnder closed k then .error .malformed
    else
      match putAt false k v table with
      | none => .error .malformed
      | some table =>
        match skipBlanks rest with
        | '\x7d' :: tail => .ok (table, tail)
        | ',' :: more =>
          members fuel (if isClosing v then k :: closed else closed) table (skipBlanks more)
        | _ => .error .malformed

end

/-! ## Documents -/

/-- What is known of a document when a statement begins. -/
structure State where
  table : Table
  /-- The table that keys are put into. -/
  header : Key
  /-- The tables that may not be declared any more. -/
  declared : List Key
  /-- The tables opened by dotted keys of this section. -/
  opened : List Key
  /-- The values that may not be changed, with all that is below them. -/
  closed : List Key

/-- The state with a section's dotted tables among those declared. -/
def State.endSection (state : State) : State :=
  { state with declared := state.opened ++ state.declared, opened := [] }

/-- Turn a refusal into a fault. -/
def orMalformed {α : Type} (x : Option α) : Except ReadFault α :=
  match x with
  | some a => .ok a
  | none => .error .malformed

/-- The declaration of a table. -/
def tableStatement (state : State) (text : List Char) : Except ReadFault (State × List Char) := do
  let (k, rest) ← key (text.length + 1) (skipBlanks text)
  if state.declared.contains k || isUnder state.closed k then .error .malformed
  else
    let table ← orMalformed (changeTable true some k state.table)
    let rest ← orMalformed (expect? ']' rest)
    .ok ({ state with table, header := k, declared := k :: state.declared }, rest)

/-- The declaration of a table in an array of tables.  What was said of the tables below the array
concerned the table before. -/
def arrayStatement (state : State) (text : List Char) : Except ReadFault (State × List Char) := do
  let (k, rest) ← key (text.length + 1) (skipBlanks text)
  if isUnder state.closed k then .error .malformed
  else
    let table ← orMalformed
      (changeTable true (appendTable (k.getLastD "")) k.dropLast state.table)
    let rest ← orMalformed (expect? ']' rest >>= expect? ']')
    -- the array stands for a new table now, of whose inside nothing is known yet
    let keep (keys : List Key) : List Key := keys.filter fun other => !k.isPrefixOf other
    .ok ({ state with
      table
      header := k
      declared := k :: keep state.declared
      closed := keep state.closed }, rest)

/-- The tables that a dotted key opens below a header. -/
def openedBy (header : Key) : Key → List Key
  | part :: next :: rest => (header ++ [part]) :: openedBy (header ++ [part]) (next :: rest)
  | _ => []

/-- A key and its value. -/
def valueStatement (state : State) (text : List Char) : Except ReadFault (State × List Char) := do
  let (k, v, rest) ← keyValue (2 * text.length + 2) text
  let opened := openedBy state.header k
  if opened.any state.declared.contains || isUnder state.closed (state.header ++ k.dropLast) then
    .error .malformed
  else
    let table ← orMalformed (putAt true (state.header ++ k) v state.table)
    .ok ({ state with
      table
      opened := opened ++ state.opened
      closed := if isClosing v then (state.header ++ k) :: state.closed else state.closed }, rest)

/-- One statement, if the line holds one. -/
def statement (state : State) (text : List Char) : Except ReadFault (State × List Char) :=
  match text with
  | '[' :: '[' :: rest => arrayStatement state.endSection rest
  | '[' :: rest => tableStatement state.endSection rest
  | c :: _ =>
    if isBareKey c || c == doubleQuote || c == singleQuote then valueStatement state text
    else if c == '#' || c == '\n' then .ok (state, text)
    else .error .malformed
  | [] => .ok (state, text)

/-- Statements, one on a line, to the end of the text. -/
def statements : Nat → State → List Char → Except ReadFault Table
  | 0, state, _ => .ok state.table
  | fuel + 1, state, text => do
    let (state, rest) ← statement state (skipBlanks text)
    let rest ← skipComment (skipBlanks rest)
    match rest with
    | [] => .ok state.table
    | '\n' :: more => statements fuel state more
    | _ => .error .malformed

/-- Read a whole text. -/
def read (text : List Char) : Except ReadFault Value :=
  (statements (text.length + 1) ⟨[], [], [], [], []⟩ text).map .mapping

end SourceAtlas.Settings.Toml
