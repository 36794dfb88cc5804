/-
# SourceAtlas.Number.Reading — numbers from text.

A number may be written with white space around it, a sign, decimal digits of any script, and a low
line between two digits.  A real number may also have a point and an exponent, or be one of the
words for infinity and for no number at all.
-/
import SourceAtlas.Number.Binary64
import SourceAtlas.Text.Piece

namespace SourceAtlas.Number

open Text

/-- The white space that may surround a number; the four separator controls do not count. -/
def isMargin (c : Char) : Bool :=
  isBlank c && !(28 ≤ c.toNat && c.toNat ≤ 31)

/-- Whether every low line stands directly between two digits; `afterDigit` tells what precedes. -/
def separatorsFit (afterDigit : Bool) : List Char → Bool
  | [] => true
  | c :: rest =>
    if c == '_' then
      afterDigit && rest.head?.any (fun d => (digitValue? d).isSome) && separatorsFit false rest
    else separatorsFit (digitValue? c).isSome rest

/-- The text without its margins and low lines, if those stand where they may. -/
def bare? (text : List Char) : Option (List Char) :=
  let core := trimBy isMargin text
  if separatorsFit false core then some (core.filter (· != '_')) else none

/-- The digits at the head of a text, and what follows them. -/
def takeDigits : List Char → List Nat × List Char
  | [] => ([], [])
  | c :: rest =>
    match digitValue? c with
    | some d => ((d :: (takeDigits rest).1), (takeDigits rest).2)
    | none => ([], c :: rest)

/-- The natural with the given decimal digits. -/
def ofDigits (digits : List Nat) : Nat :=
  digits.foldl (fun n d => n * 10 + d) 0

/-- A sign at the head of a text: whether it is a minus, and what follows. -/
def takeSign : List Char → Bool × List Char
  | '-' :: rest => (true, rest)
  | '+' :: rest => (false, rest)
  | text => (false, text)

/-- The longest integer that is read, in digits. -/
def digitLimit : Nat := 4300

/-- The integer with the sign and magnitude. -/
def signed (negative : Bool) (magnitude : Nat) : Int :=
  if negative then -(magnitude : Int) else magnitude

/-- Read an integer. -/
def readInt? (text : List Char) : Option Int := do
  let (negative, body) := takeSign (← bare? text)
  let (digits, rest) := takeDigits body
  if digits.isEmpty || !rest.isEmpty || digitLimit < digits.length then none
  else some (signed negative (ofDigits digits))

/-- The exponent at the end of a real number: `e`, a sign and digits, or nothing. -/
def readExponent? : List Char → Option Int
  | [] => some 0
  | c :: text =>
    let (negative, body) := takeSign text
    let (digits, rest) := takeDigits body
    if (c == 'e' || c == 'E') && !digits.isEmpty && rest.isEmpty then
      some (signed negative (ofDigits digits))
    else none

/-- The words for infinity and for no number, in any case. -/
def readWord? (negative : Bool) (text : List Char) : Option Float :=
  let word := String.ofList (text.map Char.toLower)
  if word = "inf" ∨ word = "infinity" then some (if negative then -infinity else infinity)
  else if word = "nan" then some notANumber
  else none

/-- Read a real number. -/
def readFloat? (text : List Char) : Option Float := do
  let (negative, body) := takeSign (← bare? text)
  let (whole, rest) := takeDigits body
  let (places, tail) :=
    match rest with
    | '.' :: more => takeDigits more
    | _ => ([], rest)
  if whole.isEmpty && places.isEmpty then readWord? negative body
  else
    let exponent ← readExponent? tail
    some (ofDecimal negative (ofDigits (whole ++ places)) (exponent - places.length))

end SourceAtlas.Number
