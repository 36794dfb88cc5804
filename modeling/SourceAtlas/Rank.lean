/-
# SourceAtlas.Rank — the main file and the critical files.

The main file is the one that is configured, if it is tracked, and otherwise the one whose name and
place look most like an entry point.  Critical files are ranked by a score that counts importers,
imports and, on a logarithmic scale, bytes.  Every ranking ends in the path, so no two files tie.
-/
import SourceAtlas.TrackedFile

namespace SourceAtlas

/-! ## The main file -/

/-- What extensions say about an entry point. -/
def extensionPriorities : List (String × Int) :=
  [(".exe", 50), (".vsix", 48), (".pyw", 25), (".html", 20), (".htm", 20), (".sql", 18),
    (".db", 18), (".sqlite", 18), (".json", 14), (".jsonc", 14)]

/-- Names that entry points have. -/
def entryNames : List String :=
  ["package.json", "package-lock.json", "extension.ts", "extension.js", "manifest.json",
    "theme.json", "launch.json", "index.html", "main.html", "app.html", "main.sql", "schema.sql"]

/-- Directories that hold entry points. -/
def sourceDirectories : List String :=
  ["/src/", "/core/", "/app/", "/extension/", "/database/"]

/-- Words in the paths of entry points. -/
def entryWords : List String :=
  ["main", "app", "dashboard", "start"]

/-- How much a file looks like an entry point. -/
def mainPriority (path extension : String) : Int :=
  let lowered := (Text.lower path).toList
  let mentions (word : String) : Bool := Text.occursIn word.toList lowered
  (extensionPriorities.lookup (Text.lower extension)).getD 0
    + (if entryNames.contains (String.ofList (Path.baseChars lowered)) then 35 else 0)
    + (if sourceDirectories.any mentions then 10 else 0)
    + (if entryWords.any mentions then 15 else 0)
    + (if mentions "core/" then 12 else 0)

/-- The text without the `./` that it begins with, however often. -/
def dropDotSlash : List Char → List Char
  | '.' :: '/' :: rest => dropDotSlash rest
  | text => text

/-- The path that a configured main file means: trimmed, with slashes, without leading `./`. -/
def spelledPath (configured : String) : String :=
  String.ofList (dropDotSlash (Path.slashed (Text.trim configured.toList)))

/-- Whether one of two files comes first as a main file: by priority, size and path. -/
def leadsAsMain (a b : TrackedFile) : Bool :=
  let p := mainPriority a.path a.extension
  let q := mainPriority b.path b.extension
  if p ≠ q then q < p
  else if a.size ≠ b.size then b.size < a.size
  else a.path ≤ b.path

/-- The main file of a list of files. -/
def selectMain? (files : List TrackedFile) (configured : Option String) : Option String :=
  let wanted := (configured.filter (!·.isEmpty)).map spelledPath
  (wanted.filter fun path => files.any (·.path == path))
    <|> (files.mergeSort leadsAsMain).head?.map (·.path)

/-! ## Scores -/

/-- What an importer counts. -/
def inboundWeight : Float := 3.0

/-- What an import counts. -/
def outboundWeight : Float := 1.5

/-- What being the main file counts. -/
def entryBonus : Float := 5.0

/-- The common logarithm of an integer.  An integer too big for a double is split into a fraction
and a power of two. -/
def commonLog (n : Int) : Except SizeFault Float :=
  if n ≤ 0 then .error .noLogarithm
  else
    match Number.ofInt? n with
    | some x => .ok x.log10
    | none =>
      -- the fraction lies between one half and one, and may round up to one
      let power := n.natAbs.log2 + 1
      match Number.nearest? false n.natAbs (Number.twoTo power) with
      | some x =>
        if x < 1.0 then .ok (x.log10 + (2.0 : Float).log10 * power.toFloat)
        else .ok ((0.5 : Float).log10 + (2.0 : Float).log10 * (power + 1).toFloat)
      | none => .error .tooBig

/-- An integer as a double. -/
def asDouble (n : Int) : Except SizeFault Float :=
  match Number.ofInt? n with
  | some x => .ok x
  | none => .error .tooBig

/-- How much of the graph hangs on a file. -/
def criticality (inbound outbound size : Int) (isMain : Bool) : Except SizeFault Float := do
  let fromImports := inboundWeight * (← asDouble inbound) + outboundWeight * (← asDouble outbound)
  let score := fromImports + (← commonLog (size + 1))
  return if isMain then score + entryBonus else score

/-! ## The ranking -/

/-- A ranked file.  It has no score when files are ranked by size alone. -/
structure CriticalEntry where
  path : String
  inbound : Int
  outbound : Int
  size : Int
  score : Option Float

/-- Whether one of two entries comes first: by score, importers, size and path. -/
def CriticalEntry.leads (a b : CriticalEntry) : Bool :=
  let s := (a.score.map Number.orderKey).getD 0
  let t := (b.score.map Number.orderKey).getD 0
  if s ≠ t then t < s
  else if a.inbound ≠ b.inbound then b.inbound < a.inbound
  else if a.size ≠ b.size then b.size < a.size
  else a.path ≤ b.path

/-- Whether one of two files comes first by size and path. -/
def isLarger (a b : TrackedFile) : Bool :=
  if a.size ≠ b.size then b.size < a.size else a.path ≤ b.path

/-- The first `limit` elements; a negative limit leaves out that many at the end. -/
def takeUpTo {α : Type} (limit : Int) (l : List α) : List α :=
  if 0 ≤ limit then l.take limit.toNat else l.take (l.length - limit.natAbs)

/-- Whether a file takes part in the ranking by score. -/
def isCandidate (mainFile : Option String) (file : TrackedFile) : Bool :=
  !file.importedBy.isEmpty || !file.imports.isEmpty || mainFile == some file.path

/-- The entry of a file that is ranked by score. -/
def scoredEntry (mainFile : Option String) (file : TrackedFile) :
    Except SizeFault CriticalEntry := do
  let inbound : Int := file.importedBy.length
  let outbound : Int := file.imports.length
  let score ← criticality inbound outbound file.size (mainFile == some file.path)
  return ⟨file.path, inbound, outbound, file.size, some score⟩

/-- The entry of a file that is ranked by size. -/
def sizedEntry (file : TrackedFile) : CriticalEntry :=
  ⟨file.path, 0, 0, file.size, none⟩

/-- The critical files: those with an import or an importer and the main file, by score; if there
are none, the largest files. -/
def rankCritical (files : List TrackedFile) (mainFile : Option String) (limit : Int) :
    Except SizeFault (List CriticalEntry) := do
  let entries ← (files.filter (isCandidate mainFile)).mapM (scoredEntry mainFile)
  if entries.isEmpty then return (takeUpTo limit (files.mergeSort isLarger)).map sizedEntry
  else return takeUpTo limit (entries.mergeSort CriticalEntry.leads)

end SourceAtlas
