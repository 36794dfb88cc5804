/-
# SourceAtlas.CommandLine.Run — carrying out a command line.

A settings file gives the options, and the command line overrules it.  Then the root is scanned, and
the report is written out in the form that was asked for.  The scan is a parameter, since it may
also end from outside, and so is the host.
-/
import SourceAtlas.CommandLine.Arguments
import SourceAtlas.FileSystem.Settle
import SourceAtlas.Render.Json
import SourceAtlas.Render.Mermaid
import SourceAtlas.Render.Text
import SourceAtlas.Session
import SourceAtlas.Settings.File

namespace SourceAtlas.CommandLine

open Settings (Host Value ReadFault)

/-- What ends a scan without a report. -/
inductive Halt where
  | fault (fault : ScanFault)
  /-- The user broke in. -/
  | interrupted
  /-- The owner of the scan called it off. -/
  | calledOff (reason : String)
  deriving DecidableEq, Repr

/-- What the program has no answer to. -/
inductive Breakdown where
  | settings (fault : ReadFault)
  /-- The links of the main file lead round in a circle. -/
  | mainFile
  | scan (fault : ScanFault)
  deriving DecidableEq, Repr

/-! ## Options -/

/-- The options that the settings file gives: the one that is named, or one in the root. -/
def settingsFor (host : Host) (fs : FileSystem) (arguments : Arguments) :
    Except Breakdown (ScanOptions × List Warning) :=
  let path? :=
    (arguments.settings?.filter (!·.isEmpty)) <|> Settings.find? fs arguments.root
  match path? with
  | some path => (Settings.load host fs path).mapError .settings
  | none => .ok (.default host.processors, [])

/-- The main file that is named: an absolute path is told from the root. -/
def mainFileFor (fs : FileSystem) (root given : String) : Except Breakdown String := do
  let path := Text.trimmed given
  let found ←
    if Path.isAbsolute path.toList then
      match fs.settle path, fs.settle root with
      | .ok place, .ok rootPlace =>
        .ok (Path.relativeTo (FileSystem.pathOf fs.current) (FileSystem.pathOf rootPlace)
          (FileSystem.pathOf place))
      | _, _ => .error .mainFile
    else .ok path
  .ok (Path.withSlashes found)

/-- Names as values. -/
def asValue (names : List String) : Value :=
  .list (names.map .text)

/-- The options of a command line.  A flag without a value overrules nothing. -/
def optionsFor (host : Host) (fs : FileSystem) (arguments : Arguments) :
    Except Breakdown (ScanOptions × List Warning) := do
  let (base, warnings) ← settingsFor host fs arguments
  let includeExtensions :=
    match arguments.includeExtensions?.filter (!·.isEmpty) with
    | some names => (cleanExtensions (asValue names)).1
    | none => base.includeExtensions
  let excludeFolders :=
    match arguments.excludeFolders?.filter (!·.isEmpty) with
    | some names => (mergeExcluded (names.map .text)).1.union base.excludeFolders
    | none => base.excludeFolders
  let mainFile ←
    match arguments.mainFile?.filter (!·.isEmpty) with
    | some given => some <$> mainFileFor fs arguments.root given
    | none => .ok base.mainFile
  let options := { base with
    includeExtensions
    excludeFolders
    mainFile
    maxWorkers := (arguments.workers?.map (max 1)).getD base.maxWorkers
    readTimeout := arguments.timeout?.getD base.readTimeout
    criticalLimit := (arguments.top?.map (max 0)).getD base.criticalLimit }
  .ok (options, warnings)

/-! ## Output -/

/-- A failure that the user is told of. -/
structure Failure where
  exitCode : Nat
  message : String
  deriving DecidableEq, Repr

/-- The failure of a scan that gave no report. -/
def failureOf (halt : Halt) : Except Breakdown Failure :=
  match halt with
  | .interrupted => .ok ⟨130, "Scan interrupted"⟩
  | .calledOff reason => .ok ⟨130, "Error: " ++ reason⟩
  | .fault (.noRoot given) => .ok ⟨1, "Error: " ++ (ScanFault.noRoot given).message⟩
  | .fault (.cancelled root) => .ok ⟨130, "Error: " ++ (ScanFault.cancelled root).message⟩
  | .fault fault => .error (.scan fault)

/-- The report in the form that was asked for. -/
def render (arguments : Arguments) (report : Report) : Except Breakdown String :=
  match arguments.format with
  | .json => (report.toJson (.indented 2) true).mapError fun fault => .scan (.size fault)
  | .mermaid =>
    .ok (Render.toMermaid report
      ⟨arguments.orientation, arguments.groupByFolder, arguments.showAll, true⟩)
  | .text => .ok (Render.toText report (.ofStyle arguments.style))

/-- What comes of a command line before anything is written. -/
structure Production where
  warnings : List Warning
  result : Except Failure String

/-- Scan the root and put the report into the form that was asked for. -/
def produce (host : Host) (fs : FileSystem) (scan : Session → Except Halt Report)
    (arguments : Arguments) : Except Breakdown Production :=
  if fs.isFolder arguments.root then do
    let (options, warnings) ← optionsFor host fs arguments
    let shown := if arguments.isQuiet then [] else warnings
    match scan (Session.start (Path.tidied arguments.root) options) with
    | .error halt =>
      let failure ← failureOf halt
      .ok ⟨shown, .error failure⟩
    | .ok report =>
      let text ← render arguments report
      .ok ⟨shown, .ok text⟩
  else .ok ⟨[], .error ⟨1, "Error: '" ++ arguments.root ++ "' is not a directory"⟩⟩

/-- What a run of the program shows. -/
structure Outcome where
  exitCode : Nat
  stdout : String
  stderr : List String
  warnings : List Warning

/-- The line that tells that the output is in a file. -/
def writtenMessage (path : String) : String :=
  "Output written to: " ++ Path.tidied path

/-- The line that tells why the output is not in a file. -/
def unwrittenMessage (path : String) (fault : FileSystem.WriteFault) : String :=
  let (number, words) := fault.description
  "Error writing output: [Errno " ++ toString number ++ "] " ++ words ++ ": "
    ++ Text.quoted (Path.tidied path)

/-- The file that the output goes to; no name means none. -/
def Arguments.target? (arguments : Arguments) : Option String :=
  arguments.output?.filter (!·.isEmpty)

/-- Show what was produced, or write it to a file. -/
def deliver (fs : FileSystem) (arguments : Arguments) (production : Production) :
    Outcome × FileSystem :=
  match production.result, arguments.target? with
  | .error failure, _ => (⟨failure.exitCode, "", [failure.message], production.warnings⟩, fs)
  | .ok text, none => (⟨0, text ++ "\n", [], production.warnings⟩, fs)
  | .ok text, some path =>
    match fs.write path text.toUTF8.toList with
    | .ok fs => (⟨0, "", [writtenMessage path], production.warnings⟩, fs)
    | .error fault => (⟨1, "", [unwrittenMessage path fault], production.warnings⟩, fs)

/-- Carry out a command line. -/
def run (host : Host) (fs : FileSystem) (scan : Session → Except Halt Report)
    (arguments : Arguments) : Except Breakdown (Outcome × FileSystem) := do
  let production ← produce host fs scan arguments
  .ok (deliver fs arguments production)

end SourceAtlas.CommandLine
