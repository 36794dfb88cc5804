/-
# SourceAtlas.Settings.Json — reading JSON.

The common grammar of JSON with three extensions: the words `NaN`, `Infinity` and `-Infinity` are
numbers.  A number without a point and an exponent is an integer of any size, any other is a
double.  Of two members with one name the later wins.
-/
import SourceAtlas.Number.Reading
import SourceAtlas.Settings.Value

namespace SourceAtlas.Settings.Json

/-- The white space between tokens. -/
def isGap (c : Char) : Bool :=
  c == ' ' || c == '\t' || c == '\n' || c == '\r'

/-- The text from the next token on. -/
def skipGap (text : List Char) : List Char :=
  text.dropWhile isGap

/-- The value of a hexadecimal digit. -/
def hexDigit? (c : Char) : Option Nat :=
  if '0' ≤ c && c ≤ '9' then some (c.toNat - 48)
  else if 'a' ≤ c && c ≤ 'f' then some (c.toNat - 87)
  else if 'A' ≤ c && c ≤ 'F' then some (c.toNat - 55)
  else none

/-- The value of a run of hexadecimal digits, if all of them are. -/
def hexValue? (digits : List Char) : Option Nat :=
  digits.foldlM (fun n c => (hexDigit? c).map (n * 16 + ·)) 0

/-- The code unit of four hexadecimal digits at the head of a text. -/
def codeUnit? : List Char → Option (Nat × List Char)
  | a :: b :: c :: d :: rest => (hexValue? [a, b, c, d]).map (·, rest)
  | _ => none

/-- The character of an escape of one letter. -/
def shortEscape? : Char → Option Char
  | '"' => some '"'
  | '\\' => some '\\'
  | '/' => some '/'
  | 'b' => some '\x08'
  | 'f' => some '\x0c'
  | 'n' => some '\n'
  | 'r' => some '\r'
  | 't' => some '\t'
  | _ => none

/-- A character written as `\u` and code units; the text starts after the `u`.  Two units that form
a surrogate pair are one character, a lone surrogate is a replacement character. -/
def unicodeEscape? (text : List Char) : Option (Char × List Char) := do
  let (unit, rest) ← codeUnit? text
  let lone := (if 0xD800 ≤ unit && unit < 0xE000 then '\uFFFD' else Char.ofNat unit, rest)
  if 0xD800 ≤ unit && unit < 0xDC00 then
    match rest with
    | '\\' :: 'u' :: more =>
      match codeUnit? more with
      | some (low, rest') =>
        if 0xDC00 ≤ low && low < 0xE000 then
          some (Char.ofNat (0x10000 + (unit - 0xD800) * 0x400 + (low - 0xDC00)), rest')
        else some lone
      | none => some lone
    | _ => some lone
  else some lone

/-- The characters of a string up to its closing quote. -/
def stringBody (fuel : Nat) (text : List Char) : Except ReadFault (List Char × List Char) :=
  match fuel, text with
  | 0, _ => .error .malformed
  | _, [] => .error .malformed
  | fuel + 1, c :: rest =>
    if c == '"' then .ok ([], rest)
    else if c == '\\' then
      match rest with
      | 'u' :: more =>
        match unicodeEscape? more with
        | some (d, tail) => do
          let (body, tail) ← stringBody fuel tail
          .ok (d :: body, tail)
        | none => .error .malformed
      | e :: more =>
        match shortEscape? e with
        | some d => do
          let (body, tail) ← stringBody fuel more
          .ok (d :: body, tail)
        | none => .error .malformed
      | [] => .error .malformed
    else if c.toNat < 32 then .error .malformed
    else do
      let (body, tail) ← stringBody fuel rest
      .ok (c :: body, tail)

/-- The ASCII digits at the head of a text, and what follows. -/
def digits (text : List Char) : List Nat × List Char :=
  ((text.takeWhile Char.isDigit).map (·.toNat - 48), text.dropWhile Char.isDigit)

/-- The decimal places of a number: a point and at least one digit, or nothing. -/
def places (text : List Char) : List Nat × List Char :=
  match text with
  | '.' :: rest =>
    let (ds, more) := digits rest
    if ds.isEmpty then ([], text) else (ds, more)
  | _ => ([], text)

/-- The exponent of a number, if one follows. -/
def exponent (text : List Char) : Option Int × List Char :=
  match text with
  | e :: rest =>
    let (negative, body) := Number.takeSign rest
    let (ds, more) := digits body
    if (e == 'e' || e == 'E') && !ds.isEmpty then
      (some (Number.signed negative (Number.ofDigits ds)), more)
    else (none, text)
  | [] => (none, text)

/-- A number. -/
def number (text : List Char) : Except ReadFault (Value × List Char) :=
  let (negative, body) :=
    match text with
    | '-' :: rest => (true, rest)
    | _ => (false, text)
  let (whole, rest) :=
    match body with
    | '0' :: rest => ([0], rest)
    | _ => digits body
  if whole.isEmpty then .error .malformed
  else
    let (fraction, rest) := places rest
    let (power, rest) := exponent rest
    if fraction.isEmpty && power.isNone then
      if Number.digitLimit < whole.length then .error .impossible
      else .ok (.int (Number.signed negative (Number.ofDigits whole)), rest)
    else
      .ok (.float (Number.ofDecimal negative (Number.ofDigits (whole ++ fraction))
        (power.getD 0 - fraction.length)), rest)

/-- The words that stand for values. -/
def words : List (List Char × Value) :=
  [("null".toList, .null), ("true".toList, .bool true), ("false".toList, .bool false),
    ("NaN".toList, .float Number.notANumber), ("Infinity".toList, .float Number.infinity),
    ("-Infinity".toList, .float (-Number.infinity))]

mutual

/-- A value. -/
def value (fuel : Nat) (text : List Char) : Except ReadFault (Value × List Char) :=
  match fuel, text with
  | 0, _ => .error .malformed
  | _, [] => .error .malformed
  | fuel + 1, c :: rest =>
    if c == '"' then do
      let (body, tail) ← stringBody (rest.length + 1) rest
      .ok (.text (String.ofList body), tail)
    else if c == '[' then
      match skipGap rest with
      | ']' :: tail => .ok (.list [], tail)
      | body => do
        let (items, tail) ← elements fuel body
        .ok (.list items, tail)
    else if c == '\x7b' then
      match skipGap rest with
      | '\x7d' :: tail => .ok (.mapping [], tail)
      | body => do
        let (entries, tail) ← members fuel body
        .ok (.ofEntries entries, tail)
    else
      match words.find? fun word => word.1.isPrefixOf (c :: rest) with
      | some (word, v) => .ok (v, (c :: rest).drop word.length)
      | none => number (c :: rest)

/-- The elements of an array, from the first one to the closing bracket. -/
def elements (fuel : Nat) (text : List Char) : Except ReadFault (List Value × List Char) :=
  match fuel with
  | 0 => .error .malformed
  | fuel + 1 => do
    let (item, rest) ← value fuel text
    match skipGap rest with
    | ',' :: more =>
      let (items, tail) ← elements fuel (skipGap more)
      .ok (item :: items, tail)
    | ']' :: tail => .ok ([item], tail)
    | _ => .error .malformed

/-- The members of an object, from the first one to the closing brace. -/
def members (fuel : Nat) (text : List Char) :
    Except ReadFault (List (Value × Value) × List Char) :=
  match fuel, text with
  | fuel + 1, '"' :: rest => do
    let (name, rest) ← stringBody (rest.length + 1) rest
    match skipGap rest with
    | ':' :: more =>
      let (v, rest) ← value fuel (skipGap more)
      let entry := (Value.text (String.ofList name), v)
      match skipGap rest with
      | ',' :: more =>
        let (entries, tail) ← members fuel (skipGap more)
        .ok (entry :: entries, tail)
      | '\x7d' :: tail => .ok ([entry], tail)
      | _ => .error .malformed
    | _ => .error .malformed
  | _, _ => .error .malformed

end

/-- Read a whole text. -/
def read (text : List Char) : Except ReadFault Value := do
  let (v, rest) ← value (2 * text.length + 2) (skipGap text)
  if (skipGap rest).isEmpty then .ok v else .error .malformed

end SourceAtlas.Settings.Json
