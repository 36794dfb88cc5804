/-
# SourceAtlas.Json.Document — JSON documents and their text.

A document keeps the members of its objects in the order in which they are to be written.  Its text
is pure ASCII.  It is written on one line, or with a line for every element and member, indented by
a number of spaces for each level.
-/
import SourceAtlas.Number.Decimal

namespace SourceAtlas.Json

/-- A JSON document. -/
inductive Document where
  | null
  | bool (b : Bool)
  | int (n : Int)
  | float (x : Float)
  | text (s : String)
  | array (items : List Document)
  | object (members : List (String × Document))
  deriving Inhabited

namespace Document

/-- A hexadecimal digit. -/
def hexDigit (n : Nat) : Char :=
  (Nat.toDigits 16 (n % 16)).headD '0'

/-- A code unit as four hexadecimal digits behind `\u`. -/
def escapeUnit (unit : Nat) : List Char :=
  ['\\', 'u', hexDigit (unit / 4096), hexDigit (unit / 256), hexDigit (unit / 16), hexDigit unit]

/-- A character as it stands in a string: printable ASCII as itself, a few controls as a letter,
everything else by code units. -/
def escape (c : Char) : List Char :=
  let code := c.toNat
  if c == '"' then ['\\', '"']
  else if c == '\\' then ['\\', '\\']
  else if c == '\n' then ['\\', 'n']
  else if c == '\r' then ['\\', 'r']
  else if c == '\t' then ['\\', 't']
  else if code == 0x0C then ['\\', 'f']
  else if code == 0x08 then ['\\', 'b']
  else if 0x20 ≤ code && code ≤ 0x7E then [c]
  else if code < 0x10000 then escapeUnit code
  else
    escapeUnit (0xD800 + (code - 0x10000) / 0x400) ++ escapeUnit (0xDC00 + (code - 0x10000) % 0x400)

/-- A string between quotes. -/
def quoted (s : String) : String :=
  String.ofList ('"' :: s.toList.flatMap escape ++ ['"'])

/-- A double; infinities and non-numbers are written as words. -/
def floatText (x : Float) : String :=
  if (Number.dyadic? x).isSome then Number.shortest x
  else if x.isNaN then "NaN"
  else if x < 0 then "-Infinity"
  else "Infinity"

/-- How a document is laid out: on one line, or indented by a number of spaces. -/
inductive Layout where
  | line
  | indented (width : Nat)

/-- The break before the elements at a depth. -/
def Layout.break : Layout → Nat → String
  | line, _ => ""
  | indented width, depth => String.ofList ('\n' :: List.replicate (width * depth) ' ')

/-- What separates two elements at a depth. -/
def Layout.separator (layout : Layout) (depth : Nat) : String :=
  match layout with
  | line => ", "
  | indented _ => "," ++ layout.break depth

/-- Elements between brackets, the elements standing at the depth. -/
def enclose (layout : Layout) (depth : Nat) (opening closing : String) (items : List String) :
    String :=
  if items.isEmpty then opening ++ closing
  else
    opening ++ layout.break depth ++ (layout.separator depth).intercalate items
      ++ layout.break (depth - 1) ++ closing

mutual

/-- The text of a document whose elements stand at a depth. -/
def renderAt (layout : Layout) (depth : Nat) : Document → String
  | null => "null"
  | bool b => if b then "true" else "false"
  | int n => toString n
  | float x => floatText x
  | text s => quoted s
  | array items => enclose layout (depth + 1) "[" "]" (renderItems layout (depth + 1) items)
  | object members =>
    enclose layout (depth + 1) "\x7b" "\x7d" (renderMembers layout (depth + 1) members)

/-- The texts of the elements of an array. -/
def renderItems (layout : Layout) (depth : Nat) : List Document → List String
  | [] => []
  | item :: rest => renderAt layout depth item :: renderItems layout depth rest

/-- The texts of the members of an object. -/
def renderMembers (layout : Layout) (depth : Nat) : List (String × Document) → List String
  | [] => []
  | (name, item) :: rest =>
    (quoted name ++ ": " ++ renderAt layout depth item) :: renderMembers layout depth rest

end

/-- The text of a document. -/
def render (layout : Layout) (document : Document) : String :=
  renderAt layout 0 document

end Document

end SourceAtlas.Json
