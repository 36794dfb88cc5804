/-
# SourceAtlas.Settings.Yaml.Tag — what the texts of a YAML document stand for.

A node has a tag, which says what kind of value it is.  A plain text without a tag gets one from its
form: `yes` is a truth value, `010` an integer in base eight, `1:30` one in base sixty, `.inf` a
real number, `2024-01-02` a date.
-/
import SourceAtlas.Number.Reading
import SourceAtlas.Settings.Calendar
import SourceAtlas.Settings.Json
import SourceAtlas.Text.Base64

namespace SourceAtlas.Settings.Yaml

/-- The kinds of values. -/
inductive Tag where
  | null
  | bool
  | int
  | float
  | text
  | binary
  | moment
  | list
  | pairs
  | set
  | mapping
  /-- A key whose value is a mapping to be merged in. -/
  | merge
  /-- A key whose value stands for the whole mapping. -/
  | default
  /-- A kind that is not known. -/
  | unknown
  deriving DecidableEq, Repr

namespace Tag

/-- The beginning of the names of all common tags. -/
def commonStart : String := "tag:yaml.org,2002:"

/-- The common tags by their names. -/
def common : List (String × Tag) :=
  [("null", null), ("bool", bool), ("int", int), ("float", float), ("str", text),
    ("binary", binary), ("timestamp", moment), ("seq", list), ("omap", pairs), ("pairs", pairs),
    ("set", set), ("map", mapping), ("merge", merge), ("value", default)]

/-- The tag of a name. -/
def ofName (name : String) : Tag :=
  ((common.find? fun entry => commonStart ++ entry.1 == name).map (·.2)).getD unknown

end Tag

/-! ## The forms of plain texts -/

/-- The words for truth values, in small letters. -/
def truthWords : List (String × Bool) :=
  [("yes", true), ("no", false), ("true", true), ("false", false), ("on", true), ("off", false)]

/-- Whether a text is a word in small letters, with a capital, or in capitals. -/
def isCasedWord (word : String) (text : List Char) : Bool :=
  let letters := word.toList
  text == letters || text == letters.map Char.toUpper
    || text == (letters.take 1).map Char.toUpper ++ letters.drop 1

/-- A decimal digit or a low line. -/
def isDigitOrLow (c : Char) : Bool :=
  c.isDigit || c == '_'

/-- The text behind a sign, if there is one. -/
def dropSign (text : List Char) : List Char :=
  (Number.takeSign text).2

/-- The text behind parts in base sixty, each of them a colon and one or two digits; at least one
is needed. -/
def dropSixtieths? : List Char → Option (List Char)
  | ':' :: a :: b :: rest =>
    if '0' ≤ a && a ≤ '5' && b.isDigit then some ((dropSixtieths? rest).getD rest)
    else if a.isDigit then some ((dropSixtieths? (b :: rest)).getD (b :: rest))
    else none
  | [':', a] => if a.isDigit then some [] else none
  | _ => none

/-- Whether a text has the form of an integer. -/
def isIntForm (text : List Char) : Bool :=
  let hasDigits (isMember : Char → Bool) (rest : List Char) : Bool :=
    !rest.isEmpty && rest.all isMember
  match dropSign text with
  | '0' :: 'b' :: rest => hasDigits (fun c => c == '0' || c == '1' || c == '_') rest
  | '0' :: 'x' :: rest => hasDigits (fun c => (Json.hexDigit? c).isSome || c == '_') rest
  | '0' :: rest => rest.all fun c => ('0' ≤ c && c ≤ '7') || c == '_'
  | c :: rest =>
    c.isDigit
      && match rest.dropWhile isDigitOrLow with
        | [] => true
        | tail => dropSixtieths? tail == some []
  | [] => false

/-- Whether a text is an exponent with its sign, or nothing. -/
def isExponentForm (text : List Char) : Bool :=
  match text with
  | [] => true
  | e :: sign :: digits =>
    (e == 'e' || e == 'E') && (sign == '+' || sign == '-')
      && !digits.isEmpty && digits.all Char.isDigit
  | _ => false

/-- Whether a text has the form of a real number: it needs a point. -/
def isFloatForm (text : List Char) : Bool :=
  let isWord (words : List String) (rest : List Char) : Bool :=
    words.any fun word => word.toList == rest
  match text with
  | '.' :: rest =>
    isWord ["inf", "Inf", "INF", "nan", "NaN", "NAN"] rest
      || (rest.head?.any Char.isDigit && isExponentForm (rest.dropWhile isDigitOrLow))
  | _ =>
    match dropSign text with
    | '.' :: rest => isWord ["inf", "Inf", "INF"] rest
    | c :: rest =>
      c.isDigit
        && match rest.dropWhile isDigitOrLow with
          | '.' :: tail => isExponentForm (tail.dropWhile isDigitOrLow)
          | tail =>
            match dropSixtieths? tail with
            | some ('.' :: places) => places.all isDigitOrLow
            | _ => false
    | [] => false

/-! ## Dates and times -/

/-- A date and perhaps a time, as they are written. -/
structure Moment where
  year : Nat
  month : Nat
  day : Nat
  /-- Whether the text is a date without being tagged as one: it has a time, or its month and its
  day are written with two digits. -/
  isEvident : Bool
  time? : Option (Nat × Nat × Nat)
  /-- The distance from universal time in minutes, without its sign. -/
  zone : Nat

/-- A number of at least and at most so many digits, how many it has, and what follows. -/
def digitsBetween? (least most : Nat) (text : List Char) : Option (Nat × Nat × List Char) :=
  let digits := (text.take most).takeWhile Char.isDigit
  if digits.length < least then none
  else
    some (Number.ofDigits (digits.map (·.toNat - 48)), digits.length, text.drop digits.length)

/-- A time zone at the end of a text, in minutes. -/
def zone? (text : List Char) : Option Nat :=
  match text.dropWhile fun c => c == ' ' || c == '\t' with
  | [] => if text.isEmpty then some 0 else none
  | ['Z'] => some 0
  | sign :: rest => do
    if sign == '+' || sign == '-' then
      let (hours, _, rest) ← digitsBetween? 1 2 rest
      match rest with
      | [] => some (hours * 60)
      | ':' :: rest =>
        let (minutes, _, rest) ← digitsBetween? 2 2 rest
        if rest.isEmpty then some (hours * 60 + minutes) else none
      | _ => none
    else none

/-- The text behind the decimal places of a second, if there are any. -/
def dropPlaces (text : List Char) : List Char :=
  match text with
  | '.' :: rest => rest.dropWhile Char.isDigit
  | _ => text

/-- A text as a date, or as a date and a time. -/
def readMoment? (text : List Char) : Option Moment := do
  let (year, _, rest) ← digitsBetween? 4 4 text
  let (month, monthWidth, rest) ← digitsBetween? 1 2 (← expect? '-' rest)
  let (day, dayWidth, rest) ← digitsBetween? 1 2 (← expect? '-' rest)
  let date : Moment := ⟨year, month, day, monthWidth == 2 && dayWidth == 2, none, 0⟩
  match rest with
  | [] => some date
  | c :: tail =>
    let rest ←
      if c == 'T' || c == 't' then some tail
      else if c == ' ' || c == '\t' then
        some (tail.dropWhile fun c => c == ' ' || c == '\t')
      else none
    let (hour, _, rest) ← digitsBetween? 1 2 rest
    let (minute, _, rest) ← digitsBetween? 2 2 (← expect? ':' rest)
    let (second, _, rest) ← digitsBetween? 2 2 (← expect? ':' rest)
    let zone ← zone? (dropPlaces rest)
    some { date with isEvident := true, time? := some (hour, minute, second), zone }

/-- Whether there is such a date and time. -/
def Moment.isPossible (moment : Moment) : Bool :=
  isDate moment.year moment.month moment.day
    && moment.zone < 24 * 60
    && moment.time?.all fun (hour, minute, second) => hour < 24 && minute < 60 && second < 60

/-- The tag of a plain text. -/
def Tag.ofPlain (text : List Char) : Tag :=
  if truthWords.any fun word => isCasedWord word.1 text then .bool
  else if isFloatForm text then .float
  else if isIntForm text then .int
  else if text == ['<', '<'] then .merge
  else if text.isEmpty || text == ['~'] || isCasedWord "null" text then .null
  else if (readMoment? text).any (·.isEvident) then .moment
  else if text == ['='] then .default
  else .text

/-! ## Values of texts -/

/-- An integer in a base that is a power of two, with or without the mark of the base. -/
def readBase? (base : Nat) (mark : Char) (text : List Char) : Option Int :=
  let (negative, body) := Number.takeSign (Text.trimBy Number.isMargin text)
  let digits :=
    match body with
    | '0' :: c :: rest => if c.toLower == mark then rest else body
    | _ => body
  if digits.isEmpty then none
  else
    (digits.foldlM (fun n c =>
      (Json.hexDigit? c).bind fun d => if d < base then some (n * base + d) else none) 0).map
        (Number.signed negative)

/-- An integer without its sign. -/
def readMagnitude? (text : List Char) : Option Int :=
  match text with
  | ['0'] => some 0
  | '0' :: 'b' :: rest => readBase? 2 'b' rest
  | '0' :: 'x' :: rest => readBase? 16 'x' rest
  | '0' :: _ => readBase? 8 'o' text
  | _ =>
    if text.contains ':' then
      ((Text.pieces (· == ':') text).mapM Number.readInt?).map fun parts =>
        parts.foldl (fun n part => n * 60 + part) 0
    else Number.readInt? text

/-- The value of a text that is tagged as an integer. -/
def readInt (text : List Char) : Except ReadFault Value :=
  let (negative, body) := Number.takeSign (text.filter (· != '_'))
  if body.isEmpty then .error .blankNumber
  else
    match readMagnitude? body with
    | some n => .ok (.int (if negative then -n else n))
    | none => .error .impossible

/-- The sum of parts in base sixty, the last part first. -/
def sumSixtieths : List Float → Nat → Float → Except ReadFault Float
  | [], _, total => .ok total
  | part :: rest, base, total =>
    match Number.ofInt? base with
    | some factor => sumSixtieths rest (base * 60) (total + part * factor)
    | none => .error .outOfRange

/-- The value of a text that is tagged as a real number. -/
def readFloat (text : List Char) : Except ReadFault Value := do
  let bare := (text.filter (· != '_')).map Char.toLower
  let (negative, body) := Number.takeSign bare
  let magnitude ←
    if bare.isEmpty then .error .blankNumber
    else if body == ".inf".toList then .ok Number.infinity
    else if body == ".nan".toList then .ok Number.notANumber
    else if body.contains ':' then
      match (Text.pieces (· == ':') body).mapM Number.readFloat? with
      | some parts => sumSixtieths parts.reverse 1 0
      | none => .error .impossible
    else
      match Number.readFloat? body with
      | some x => .ok x
      | none => .error .impossible
  .ok (.float (if negative then -magnitude else magnitude))

/-- The value of a text that is tagged as a truth value. -/
def readTruth (text : List Char) : Except ReadFault Value :=
  let word := String.ofList (text.map Char.toLower)
  match truthWords.find? fun entry => entry.1 == word with
  | some (_, b) => .ok (.bool b)
  | none => .error .unknownWord

/-- The value of a text that is tagged as a date. -/
def readMoment (text : List Char) : Except ReadFault Value :=
  match readMoment? text with
  | some moment =>
    if moment.isPossible then .ok (.moment (String.ofList text)) else .error .impossible
  | none => .error .notMoment

/-- The value of a text that is tagged as bytes. -/
def readBinary (text : List Char) : Except ReadFault Value :=
  match if text.all fun c => c.toNat < 128 then Text.Base64.decode? text else none with
  | some content => .ok (.bytes content)
  | none => .error .malformed

/-- The value of a text under a tag; a tag of values that hold others has none. -/
def Tag.valueOf (tag : Tag) (text : List Char) : Except ReadFault Value :=
  match tag with
  | .null => .ok .null
  | .bool => readTruth text
  | .int => readInt text
  | .float => readFloat text
  | .text => .ok (.text (String.ofList text))
  | .binary => readBinary text
  | .moment => readMoment text
  | _ => .error .malformed

end SourceAtlas.Settings.Yaml
