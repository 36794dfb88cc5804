/-
# SourceAtlas.Main — the program.

The outer layer: it takes a picture of the folders that the command line names, has the command line
carried out on the picture, and shows or writes what comes of it.
-/
import SourceAtlas.CommandLine.Run
import SourceAtlas.Settings.Yaml
import Std.Time.Format

namespace SourceAtlas.Program

open CommandLine (Arguments)

/-- The text of a misused command line. -/
def usage : String :=
  "usage: project-graph [-h] [-o OUTPUT] [-f FORMAT] [--orientation ORIENTATION] [--group-by-dir]\n"
    ++ "  [--show-all] [--ascii-style STYLE] [--config CONFIG] [--include-ext EXT ...]\n"
    ++ "  [--exclude-dir DIR ...] [--main-file FILE] [--workers N] [--timeout SECONDS] [--top N]\n"
    ++ "  [-v] [-q] [root]"

/-- The names on the way to a real path. -/
def placeOf (path : String) : List String :=
  FileSystem.segmentsOf path

/-- The entries of a real folder with all that is below them. -/
partial def picture (path : String) : IO (List Entry) := do
  let mut found := []
  for item in ← (← IO.FS.realPath path).readDir do
    let below := item.path.toString
    let name := item.fileName
    let entry ←
      match (← item.path.symlinkMetadata).type with
      | .dir =>
        try
          pure (Entry.folder name Faults.none (← picture below))
        catch _ =>
          pure (Entry.folder name { Faults.none with list := true } [])
      | .file =>
        try
          pure (Entry.file name Faults.none (.bytes (← IO.FS.readBinFile below).toList))
        catch _ =>
          let size := (← item.path.symlinkMetadata).byteSize.toNat
          pure (Entry.file name { Faults.none with read := true } (.zeros size))
      | .symlink => pure (Entry.link name Faults.none (← IO.FS.realPath below).toString)
      | .other => pure (Entry.special name Faults.none)
    found := entry :: found
  return found

/-- The tree with what is really at a path, if anything is there. -/
def graft (current path : String) (top : Entry) : IO Entry := do
  try
    let real ← IO.FS.realPath path
    let place := placeOf real.toString
    let name := place.getLastD ""
    let entry ←
      match (← real.metadata).type with
      | .dir => pure (Entry.folder name Faults.none (← picture real.toString))
      | .file => pure (Entry.file name Faults.none (.bytes (← IO.FS.readBinFile real).toList))
      | _ => pure (Entry.special name Faults.none)
    let top := if place.isEmpty then entry else Entry.put place.dropLast entry top
    let asked := placeOf (String.ofList (Path.normal (Path.join current path).toList))
    return if (top.at? asked).isSome then top
      else Entry.put asked.dropLast (.link (asked.getLastD "") Faults.none real.toString) top
  catch _ => return top

/-- The file system as far as a command line is about it. -/
def fileSystem (arguments : Arguments) : IO FileSystem := do
  let current := (← IO.currentDir).toString
  let home ← IO.getEnv "HOME"
  let place := placeOf current
  let start := Entry.put place.dropLast (Entry.emptyFolder (place.getLastD ""))
    (Entry.emptyFolder "")
  let top ← graft current arguments.root start
  let top ←
    match arguments.settings? with
    | some path => graft current path top
    | none => pure top
  return { top, current := place, home? := fun user => if user.isEmpty then home else none }

/-- Why a file could not really be written. -/
def writeFault (error : IO.Error) : FileSystem.WriteFault :=
  match error with
  | .inappropriateType .. => .isFolder
  | .illegalOperation .. => .isFolder
  | .unsatisfiedConstraints .. => .tooManyLinks
  | _ => .notFound

/-- What the machine provides.  The processors are known where the system lists them. -/
def host : IO Settings.Host := do
  let processors ←
    try
      let lines ← IO.FS.lines "/proc/cpuinfo"
      pure (some (lines.filter (·.startsWith "processor")).size)
    catch _ => pure none
  return { processors, readYaml := Settings.Yaml.read }

/-- The moment that a report is made at. -/
def now : IO String := do
  let moment := Std.Time.DateTime.ofTimestamp (← Std.Time.Timestamp.now)
    Std.Time.TimeZone.ZoneRules.UTC
  return moment.format "uuuu-MM-dd'T'HH:mm:ss.SSSSSS" ++ "+00:00"

/-- Show what was produced, or really write it to its file. -/
def deliver (arguments : Arguments) (production : CommandLine.Production) : IO UInt32 := do
  for warning in production.warnings do
    IO.eprintln ("WARNING " ++ warning.template)
  match production.result, arguments.target? with
  | .error failure, _ =>
    IO.eprintln failure.message
    return failure.exitCode.toUInt32
  | .ok text, none =>
    IO.println text
    return 0
  | .ok text, some path =>
    try
      IO.FS.writeFile path text
      IO.eprintln (CommandLine.writtenMessage path)
      return 0
    catch error =>
      IO.eprintln (CommandLine.unwrittenMessage path (writeFault error))
      return 1

end SourceAtlas.Program

open SourceAtlas in
/-- Carry out a command line. -/
def main (texts : List String) : IO UInt32 := do
  match CommandLine.Arguments.ofTexts texts with
  | .error refusal =>
    if refusal = .help then IO.println Program.usage else IO.eprintln Program.usage
    return refusal.exitCode.toUInt32
  | .ok arguments =>
    let host ← Program.host
    let fs ← Program.fileSystem arguments
    let time ← Program.now
    let scan (session : Session) := (session.run fs time .never).1.mapError .fault
    match CommandLine.produce host fs scan arguments with
    | .ok production => Program.deliver arguments production
    | .error _ =>
      IO.eprintln "Error: a setting or a size is out of range"
      return 1
