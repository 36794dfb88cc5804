/-
# SourceAtlas.Settings.Apply — options from a mapping of settings.

The settings may stand in the mapping itself or under a name of their own, and each has two
spellings.  A value that is not there, or is null, leaves the default.  Numbers may be given as
text; one that cannot be read is left out with a warning, but an infinite number has no integer and
a number too big for a double has no real value, and these are faults.
-/
import SourceAtlas.Number.Reading
import SourceAtlas.Options

namespace SourceAtlas.Settings

/-- The names that the settings may stand under. -/
def namespaces : List String := ["projectGraph", "project_graph", "project-graph"]

/-- The mapping that holds the settings: the first one under one of the names, or the whole. -/
def scope (entries : List (Value × Value)) : List (Value × Value) :=
  (namespaces.findSome? fun name =>
    match Value.lookup? name entries with
    | some (.mapping nested) => some nested
    | _ => none).getD entries

/-- The two spellings of a setting, the first one winning. -/
def spellings : Setting → List String
  | .includeExtensions => ["includeExtensions", "include_extensions"]
  | .excludeFolders => ["excludeFolders", "exclude_folders"]
  | .mainFile => ["mainFile", "main_file"]
  | .maxWorkers => ["maxWorkers", "max_workers"]
  | .readTimeout => ["readTimeout", "read_timeout"]
  | .criticalLimit => ["criticalLimit", "critical_limit"]

/-- The value of a setting; the first spelling that is there decides, even if it is null. -/
def pick? (entries : List (Value × Value)) (setting : Setting) : Option Value :=
  match (spellings setting).findSome? (Value.lookup? · entries) with
  | some .null => none
  | found => found

/-- What becomes of a value that is read as a number. -/
inductive Cast (α : Type) where
  | ok (a : α)
  | malformed
  /-- The number is out of the range of its type. -/
  | outOfRange

/-- A read result. -/
def Cast.ofOption {α : Type} : Option α → Cast α
  | some a => ok a
  | none => malformed

/-- Bytes as the text of a number; bytes beyond ASCII are no part of one. -/
def asciiText (content : List UInt8) : List Char :=
  content.map fun byte => if byte < 0x80 then Char.ofNat byte.toNat else '?'

/-- A value as an integer; a real number loses its places. -/
def castInt : Value → Cast Int
  | .bool b => .ok (if b then 1 else 0)
  | .int n => .ok n
  | .float x =>
    -- infinities and what is no number at all have no integer part, and differ in kind
    match Number.truncate? x with
    | some n => .ok n
    | none => if x.isNaN then .malformed else .outOfRange
  | .text s => .ofOption (Number.readInt? s.toList)
  | .bytes content => .ofOption (Number.readInt? (asciiText content))
  | _ => .malformed

/-- A value as a real number. -/
def castFloat : Value → Cast Float
  | .bool b => .ok (if b then 1.0 else 0.0)
  | .int n =>
    match Number.ofInt? n with
    | some x => .ok x
    | none => .outOfRange
  | .float x => .ok x
  | .text s => .ofOption (Number.readFloat? s.toList)
  | .bytes content => .ofOption (Number.readFloat? (asciiText content))
  | _ => .malformed

/-- A number out of the range of its type. -/
inductive RangeFault where
  | overflow
  deriving DecidableEq, Repr

/-- The number that a setting gives, with a default and a warning if it gives none. -/
def numberOr {α : Type} (cast : Value → Cast α) (entries : List (Value × Value))
    (setting : Setting) (default : α) : Except RangeFault (α × List Warning) :=
  match pick? entries setting with
  | none => .ok (default, [])
  | some value =>
    match cast value with
    | .ok a => .ok (a, [])
    | .malformed => .ok (default, [.malformedSetting setting])
    | .outOfRange => .error .overflow

/-- The options that a mapping of settings gives on a machine with a number of processors. -/
def apply (processors : Option Nat) (mapping : List (Value × Value)) :
    Except RangeFault (ScanOptions × List Warning) := do
  let entries := scope mapping
  let raw := ScanOptions.Raw.default processors
  let (maxWorkers, w₁) ← numberOr castInt entries .maxWorkers raw.maxWorkers
  let (readTimeout, w₂) ← numberOr castFloat entries .readTimeout raw.readTimeout
  let (criticalLimit, w₃) ← numberOr castInt entries .criticalLimit raw.criticalLimit
  let (options, w₄) := ScanOptions.ofRaw {
    raw with
    includeExtensions := (pick? entries .includeExtensions).getD raw.includeExtensions
    excludeFolders := (pick? entries .excludeFolders).getD raw.excludeFolders
    mainFile := (pick? entries .mainFile).getD raw.mainFile
    maxWorkers
    readTimeout
    criticalLimit }
  return (options, w₁ ++ w₂ ++ w₃ ++ w₄)

end SourceAtlas.Settings
