/-
# SourceAtlas.Settings.File — options from a settings file.

The ending of a file's name tells its format, and YAML is taken for any other.  A file that cannot
be read, is not in its format or holds no mapping gives the default options and a warning; so a
settings file never stops a scan, unless it names a value that cannot be.

YAML is read by a library of its own.  Nothing here depends on what it makes of a text.
-/
import SourceAtlas.FileSystem.Lookup
import SourceAtlas.Settings.Apply
import SourceAtlas.Settings.Toml
import SourceAtlas.Text.Utf8

namespace SourceAtlas.Settings

/-- The formats of settings files. -/
inductive Format where
  | yaml
  | toml
  | json
  deriving DecidableEq, Repr

/-- The format of a file of some name. -/
def Format.ofPath (path : String) : Format :=
  let suffix := Text.lower (Path.suffix path)
  if suffix = ".toml" then .toml else if suffix = ".json" then .json else .yaml

/-- What settings take from their surroundings. -/
structure Host where
  /-- The number of processors, if it is known. -/
  processors : Option Nat
  /-- The reader of YAML texts. -/
  readYaml : List Char → Except ReadFault Value

/-- Read a text in a format. -/
def Format.read (host : Host) : Format → List Char → Except ReadFault Value
  | yaml => host.readYaml
  | toml => Toml.read
  | json => Json.read

/-- The options that a settings text gives. -/
def optionsOfText (host : Host) (format : Format) (text : List Char) :
    Except ReadFault (ScanOptions × List Warning) :=
  match format.read host text with
  | .error .malformed => .ok (.default host.processors, [.malformedFile])
  | .error fault => .error fault
  | .ok .null => .ok (.default host.processors, [])
  | .ok (.mapping entries) =>
    (apply host.processors entries).mapError fun | .overflow => .outOfRange
  | .ok _ => .ok (.default host.processors, [.notMapping])

/-- The options that the settings file at a path gives. -/
def load (host : Host) (fs : FileSystem) (path : String) :
    Except ReadFault (ScanOptions × List Warning) :=
  match (fs.bytes? path).bind Text.Utf8.strict? with
  | none => .ok (.default host.processors, [.unreadableFile])
  | some text => optionsOfText host (.ofPath path) text

/-- The names that a settings file may have, the most wanted first. -/
def fileNames : List String :=
  [".project-graph.yaml", ".project-graph.yml", ".project-graph.toml", ".project-graph.json"]

/-- The settings file right in a folder, if there is any. -/
def find? (fs : FileSystem) (root : String) : Option String :=
  (fileNames.map (Path.join root)).find? fs.isFile

end SourceAtlas.Settings
