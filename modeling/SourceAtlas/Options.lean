/-
# SourceAtlas.Options — what the owner of a scan decides.

Options are made from raw values of any kind.  Names are trimmed, lowered and cleaned; what cannot
be a name is left out with a warning.  Numbers are kept in their range.  Warnings are data: each
tells the setting that it is about.
-/
import SourceAtlas.OrderedSet
import SourceAtlas.Rank
import SourceAtlas.Settings.Value

namespace SourceAtlas

open Settings (Value)

/-! ## Warnings -/

/-- The settings a value can be given for. -/
inductive Setting where
  | includeExtensions
  | excludeFolders
  | mainFile
  | maxWorkers
  | readTimeout
  | criticalLimit
  deriving DecidableEq, Repr

/-- The name of a setting in a settings file. -/
def Setting.name : Setting → String
  | includeExtensions => "includeExtensions"
  | excludeFolders => "excludeFolders"
  | mainFile => "mainFile"
  | maxWorkers => "maxWorkers"
  | readTimeout => "readTimeout"
  | criticalLimit => "criticalLimit"

/-- What is wrong with a configuration. -/
inductive Warning where
  /-- An entry of a list of names is no text. -/
  | nonStringEntry (setting : Setting)
  /-- The value of a setting is of no use. -/
  | malformedSetting (setting : Setting)
  /-- The settings file cannot be read. -/
  | unreadableFile
  /-- The settings file is not in its format. -/
  | malformedFile
  /-- The settings file holds something other than a mapping. -/
  | notMapping
  deriving DecidableEq, Repr

/-- The text of a warning, with marks where the value and the file are named. -/
def Warning.template : Warning → String
  | nonStringEntry setting => "Ignoring non-string " ++ setting.name ++ " entry: %r"
  | malformedSetting setting => "Ignoring malformed " ++ setting.name ++ " setting: %r"
  | unreadableFile => "Could not read settings file %s: %s"
  | malformedFile => "Malformed settings file %s: %s"
  | notMapping => "Settings file %s does not contain a mapping"

/-! ## Defaults -/

/-- The extensions that are analysed when none are given. -/
def defaultExtensions : NameSet :=
  OrderedSet.ofList [
    ".ts", ".tsx", ".js", ".jsx", ".mjs", ".cjs", ".py", ".pyw", ".json", ".jsonc", ".html", ".htm",
    ".css", ".scss", ".sql", ".db", ".sqlite", ".yaml", ".yml", ".xml", ".vsix", ".exe", ".java",
    ".cs", ".go", ".rs", ".php", ".rb"]

/-- The extensions that are analysed in any case, because entry points have them. -/
def alwaysIncluded : List String := [".exe"]

/-- The folders that are left out by default. -/
def defaultExcluded : NameSet :=
  OrderedSet.ofList [
    ".git", ".hg", ".svn", "node_modules", "__pycache__", ".tox", ".nox", "venv", ".venv", ".idea",
    ".vscode", "dist", "build", "out", ".eggs"]

/-- The number of critical files that is told by default. -/
def defaultCriticalLimit : Int := 12

/-- The seconds that a read may take by default. -/
def defaultReadTimeout : Float := 10.0

/-- The number of readers for a number of processors, which may be unknown. -/
def workersFor (processors : Option Nat) : Int :=
  min ((processors.filter (· != 0)).getD 4 : Nat) 8

/-! ## Cleaning names -/

/-- The texts of a list of values, and a warning for each that is none. -/
def textsOf (setting : Setting) : List Value → List String × List Warning
  | [] => ([], [])
  | .text s :: rest => (s :: (textsOf setting rest).1, (textsOf setting rest).2)
  | _ :: rest => ((textsOf setting rest).1, .nonStringEntry setting :: (textsOf setting rest).2)

/-- The names that a raw value lists: a text is cut at its commas. -/
def rawNames (setting : Setting) : Value → List String × List Warning
  | .null => ([], [])
  | .text s => (Text.splitAt ',' s, [])
  | .list items => textsOf setting items
  | .tuple items => textsOf setting items
  | .set items => textsOf setting items
  | _ => ([], [.malformedSetting setting])

/-- The extension that a name means: trimmed, lowered, with a dot. -/
def cleanExtension? (name : String) : Option String :=
  let ext := Text.lower (Text.trimmed name)
  if ext.isEmpty || ext = "." then none
  else if Text.beginsWith '.' ext then some ext
  else some ("." ++ ext)

/-- Whether the character separates the parts of a path. -/
def isSeparator (c : Char) : Bool :=
  c == '/' || c == '\\'

/-- The folder name that a name means: trimmed, without separators around it, lowered. -/
def cleanFolder? (name : String) : Option String :=
  let folder := String.ofList
    (Text.lowerChars (Text.trimBy isSeparator (Text.trim name.toList)))
  if folder.isEmpty then none else some folder

/-- The extensions that a raw value lists. -/
def cleanExtensions (raw : Value) : NameSet × List Warning :=
  let (names, warnings) := rawNames .includeExtensions raw
  (OrderedSet.ofList (names.filterMap cleanExtension?), warnings)

/-- The folders that a raw value lists. -/
def cleanFolders (raw : Value) : NameSet × List Warning :=
  let (names, warnings) := rawNames .excludeFolders raw
  (OrderedSet.ofList (names.filterMap cleanFolder?), warnings)

/-- The main file that a raw value names. -/
def cleanMainFile (raw : Value) : Option String × List Warning :=
  match raw with
  | .null => (none, [])
  | .text s => ((some (spelledPath s)).filter (!·.isEmpty), [])
  | _ => (none, [.malformedSetting .mainFile])

/-- Folders that are left out in addition to the default ones. -/
def mergeExcluded (extra : List Value) : NameSet × List Warning :=
  let (folders, warnings) := cleanFolders (.list extra)
  (folders.union defaultExcluded, warnings)

/-! ## Options -/

/-- What the owner of a scan decides. -/
structure ScanOptions where
  /-- The extensions that are analysed; none means the default ones. -/
  includeExtensions : NameSet
  /-- The folders that are left out wherever they stand in a path. -/
  excludeFolders : NameSet
  /-- The configured main file. -/
  mainFile : Option String
  /-- The number of files that are read at a time. -/
  maxWorkers : Int
  /-- The seconds that a read may take. -/
  readTimeout : Float
  /-- The number of critical files that is told. -/
  criticalLimit : Int
  /-- Whether a scan that is cut short gives a report. -/
  partialOnCancel : Bool

namespace ScanOptions

/-- The raw values that options are made from. -/
structure Raw where
  includeExtensions : Value
  excludeFolders : Value
  mainFile : Value
  maxWorkers : Int
  readTimeout : Float
  criticalLimit : Int
  partialOnCancel : Bool

/-- The raw values of the defaults on a machine with a number of processors. -/
def Raw.default (processors : Option Nat) : Raw where
  includeExtensions := .null
  excludeFolders := .list (defaultExcluded.toList.map .text)
  mainFile := .null
  maxWorkers := workersFor processors
  readTimeout := defaultReadTimeout
  criticalLimit := defaultCriticalLimit
  partialOnCancel := true

/-- Options from raw values: names cleaned, numbers kept in their range. -/
def ofRaw (raw : Raw) : ScanOptions × List Warning :=
  let (extensions, warnings) := cleanExtensions raw.includeExtensions
  let (folders, warnings') := cleanFolders raw.excludeFolders
  let (mainFile, warnings'') := cleanMainFile raw.mainFile
  ({ includeExtensions := extensions
     excludeFolders := folders
     mainFile
     maxWorkers := max 1 raw.maxWorkers
     readTimeout := raw.readTimeout
     criticalLimit := max 0 raw.criticalLimit
     partialOnCancel := raw.partialOnCancel },
    warnings ++ warnings' ++ warnings'')

/-- The default options on a machine with a number of processors. -/
def default (processors : Option Nat) : ScanOptions :=
  (ofRaw (Raw.default processors)).1

/-- The extensions that are analysed. -/
def activeExtensions (options : ScanOptions) : NameSet :=
  let chosen :=
    if options.includeExtensions.isEmpty then defaultExtensions else options.includeExtensions
  alwaysIncluded.foldl OrderedSet.insert chosen

end ScanOptions

end SourceAtlas
