/-
# SourceAtlas.Settings.Value — what a settings file can say.

The common value type of the three settings formats.  Keys of a mapping may be any value that has
an identity; two keys are the same key if they are the same value, where numbers and truth values
are compared as numbers.
-/
import SourceAtlas.Number.Binary64

namespace SourceAtlas.Settings

/-- Why a settings text gives no value. -/
inductive ReadFault where
  /-- The text is not in its format. -/
  | malformed
  /-- The text is in its format and names a number, a character or a date that cannot be. -/
  | impossible
  /-- A number has no characters at all. -/
  | blankNumber
  /-- What is said to be a truth value is none. -/
  | unknownWord
  /-- What is said to be a date is none. -/
  | notMoment
  /-- A number is out of the range that it can be counted in. -/
  | outOfRange
  deriving DecidableEq, Repr

/-- A value of a settings file. -/
inductive Value where
  | null
  | bool (b : Bool)
  | int (n : Int)
  | float (x : Float)
  | text (s : String)
  | bytes (content : List UInt8)
  /-- A date, a time or both, as it was written. -/
  | moment (spelling : String)
  | list (items : List Value)
  /-- A fixed group of values, such as a pair of a key and a value. -/
  | tuple (items : List Value)
  | set (items : List Value)
  | mapping (entries : List (Value × Value))
  deriving Inhabited

namespace Value

/-- Whether the exact value of a double is the integer. -/
def floatIsInt (x : Float) (n : Int) : Bool :=
  match Number.dyadic? x with
  | none => false
  | some value =>
    let (num, den) := Number.scaleTwo value.mantissa value.exponent
    (if value.negative then -(num : Int) else num) == n * den

/-- The number that a value counts as, if it is an integer or a truth value. -/
def asInt? : Value → Option Int
  | bool b => some (if b then 1 else 0)
  | int n => some n
  | _ => none

/-- Whether the value may be a key: values that hold other values in place may not. -/
def isKey : Value → Bool
  | list _ => false
  | set _ => false
  | mapping _ => false
  | _ => true

/-- Whether two values are the same key. -/
def sameKey (a b : Value) : Bool :=
  match a, b with
  | null, null => true
  | text s, text t => s == t
  | bytes s, bytes t => s == t
  | moment s, moment t => s == t
  | float x, float y => x == y
  | float x, other => other.asInt?.any (floatIsInt x)
  | other, float x => other.asInt?.any (floatIsInt x)
  | one, other => one.asInt?.isSome && one.asInt? == other.asInt?

/-- Put a key with its value; a key that is there already keeps its place and loses its old
value. -/
def put (key value : Value) : List (Value × Value) → List (Value × Value)
  | [] => [(key, value)]
  | (k, v) :: rest => if k.sameKey key then (k, value) :: rest else (k, v) :: put key value rest

/-- The mapping of a list of entries, in which later entries win. -/
def ofEntries (entries : List (Value × Value)) : Value :=
  mapping (entries.foldl (fun acc entry => put entry.1 entry.2 acc) [])

/-- The set of a list of keys. -/
def ofKeys (keys : List Value) : Value :=
  set ((keys.foldl (fun acc key => put key null acc) []).map (·.1))

/-- The value under a textual key. -/
def lookup? (key : String) : List (Value × Value) → Option Value
  | [] => none
  | (text s, v) :: rest => if s == key then some v else lookup? key rest
  | _ :: rest => lookup? key rest

/-- The value under a key of a value that may be a mapping. -/
def field? (key : String) : Value → Option Value
  | mapping entries => lookup? key entries
  | _ => none

end Value

end SourceAtlas.Settings
