/-
# SourceAtlas.Scan — from a root to a report.

A scan checks its root, walks it, reads what has an import grammar, and assembles the report.  It
can be called off at any look at the signal; then it gives a partial report or none, as its owner
decides.
-/
import SourceAtlas.FileSystem.Lookup
import SourceAtlas.Options
import SourceAtlas.Reading.Schedule
import SourceAtlas.Report.Assemble
import SourceAtlas.Walk

namespace SourceAtlas

/-- Why a scan gives no report. -/
inductive ScanFault where
  /-- There is no root, or the path given for it leads to no folder. -/
  | noRoot (given : Option String)
  /-- The root is in the home folder of a user who has none. -/
  | noHome
  /-- The scan was called off and no partial report was wanted. -/
  | cancelled (root : String)
  /-- A size cannot be shown or scored. -/
  | size (fault : SizeFault)
  deriving DecidableEq, Repr

/-- Whether a root is given at all: blanks are no path. -/
def isBlankPath (path : String) : Bool :=
  path.toList.all Text.isBlank

/-- The text of a fault. -/
def ScanFault.message : ScanFault → String
  | noRoot none => "No root directory supplied"
  | noRoot (some path) =>
    if isBlankPath path then "No root directory supplied" else "'" ++ path ++ "' is not a directory"
  | noHome => "Could not determine home directory."
  | cancelled root => "Scan of " ++ root ++ " was cancelled"
  | size .tooBig => "The size is too big"
  | size .noLogarithm => "The size has no logarithm"

namespace FileSystem

/-- A path with a leading `~` replaced by the home folder of the user behind it. -/
def expandHome (fs : FileSystem) (path : String) : Except ScanFault String :=
  let tidied := Path.tidied path
  match tidied.toList with
  | '~' :: rest =>
    let user := rest.takeWhile (· != '/')
    match fs.home? (String.ofList user) with
    | some home => .ok (home ++ String.ofList (rest.drop user.length))
    | none => .error .noHome
  | _ => .ok tidied

/-- The place of a root, which must be a folder. -/
def rootPlace (fs : FileSystem) (root : Option String) : Except ScanFault (List String) :=
  match root with
  | none => .error (.noRoot none)
  | some path =>
    if isBlankPath path then .error (.noRoot (some path))
    else do
      let expanded ← fs.expandHome path
      match fs.place? expanded with
      | some place =>
        if (fs.top.at? place).any (·.isFolder) then .ok place else .error (.noRoot (some path))
      | none => .error (.noRoot (some path))

end FileSystem

namespace Scan

/-- What a walk tells the report. -/
def totalsOf (walk : Walk.Result) : WalkTotals :=
  ⟨walk.folderPaths, walk.totalFiles, walk.totalSize⟩

/-- What the options say about the report. -/
def choiceOf (options : ScanOptions) : Report.Choice :=
  ⟨options.mainFile, options.criticalLimit⟩

/-- What is known of a tree before anything is resolved. -/
structure Findings where
  walk : Walk.Result
  /-- What the tracked files import. -/
  specifiers : SpecifierMap
  /-- Whether the scan counts as called off. -/
  cancelled : Bool

/-- Walk the tree below a root and read what has an import grammar. -/
def gather (root : Entry) (options : ScanOptions) (signal : Signal) : Findings × Signal :=
  let (walk, signal) :=
    Walk.files options.excludeFolders.toList options.activeExtensions.toList signal root
  let (early, signal) := signal.look
  let (specifiers, signal) :=
    if early then ([], signal)
    else
      Reading.readAll (Reading.jobsOf root walk.tracked) options.maxWorkers.toNat
        options.readTimeout signal
  -- a walk that was cut short settles the question, and the signal is not looked at again
  let (late, signal) := if walk.cancelled then (true, signal) else signal.look
  (⟨walk, specifiers, late⟩, signal)

/-- The report of what was found. -/
def conclude (rootPath generatedAt : String) (options : ScanOptions) (findings : Findings) :
    Except ScanFault Report :=
  if findings.cancelled && !options.partialOnCancel then .error (.cancelled rootPath)
  else
    (Report.ofSpecifiers rootPath generatedAt (totalsOf findings.walk) findings.walk.tracked
      findings.specifiers (choiceOf options) findings.cancelled).mapError .size

/-- Scan the folder at a root path. -/
def folder (root : Entry) (rootPath generatedAt : String) (options : ScanOptions)
    (signal : Signal) : Except ScanFault Report × Signal :=
  let (findings, signal) := gather root options signal
  (conclude rootPath generatedAt options findings, signal)

/-- Scan the folder that a root leads to. -/
def run (fs : FileSystem) (root : Option String) (generatedAt : String) (options : ScanOptions)
    (signal : Signal) : Except ScanFault Report × Signal :=
  match fs.rootPlace root with
  | .error fault => (.error fault, signal)
  | .ok place =>
    folder ((fs.top.at? place).getD default) (FileSystem.pathOf place) generatedAt options signal

end Scan

end SourceAtlas
