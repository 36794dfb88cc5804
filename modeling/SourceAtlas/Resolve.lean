/-
# SourceAtlas.Resolve — from a specifier to a tracked file.

A specifier stands for a list of candidate paths, in an order that its language fixes.  It resolves
to the tracked file whose key is that of the first candidate that is tracked at all.  Only
specifiers that point into the tree have ECMAScript candidates; a Python name is tried from the
root first and from the importer's directory second.
-/
import SourceAtlas.Language
import SourceAtlas.Path

namespace SourceAtlas

/-! ## The index -/

/-- Tracked files by the keys of their absolute paths; of two entries with one key the later is
found. -/
structure PathIndex where
  /-- The entries, the latest first. -/
  entries : List (String × String)

namespace PathIndex

/-- The index without entries. -/
def empty : PathIndex := ⟨[]⟩

/-- Add a file under a key. -/
def add (index : PathIndex) (key path : String) : PathIndex :=
  ⟨(key, path) :: index.entries⟩

/-- The file under a key. -/
def find? (index : PathIndex) (key : String) : Option String :=
  index.entries.lookup key

/-- The index of files under a root, given by their relative paths. -/
def ofFiles (root : String) (files : List String) : PathIndex :=
  files.foldl (fun index file => index.add (Path.key (Path.join root file)) file) empty

end PathIndex

/-! ## Candidates -/

namespace Resolve

open SourceAtlas.Path

/-- A specifier joined to a directory, in normal form; only the directory's backslashes count as
separators here. -/
def under (directory path : List Char) : List Char :=
  normal (joinChars (slashed directory) path)

/-- The paths that an ECMAScript base stands for: itself, itself with an extension, and the index
file of the directory of that name. -/
def quotedCandidates (base : List Char) : List (List Char) :=
  base :: Language.ecmascriptExtensions.map (fun ext => base ++ ext.toList)
    ++ Language.ecmascriptExtensions.map fun ext =>
      joinChars base (['i', 'n', 'd', 'e', 'x'] ++ ext.toList)

/-- The paths that a Python base stands for: the module files, and the package of that name. -/
def dottedCandidates (base : List Char) : List (List Char) :=
  Language.pythonExtensions.map (fun ext => base ++ ext.toList)
    ++ [joinChars base "__init__.py".toList]

/-- The directory that a number of steps leads up to. -/
def ascend (directory : List Char) : Nat → List Char
  | 0 => directory
  | steps + 1 => ascend (parentChars directory) steps

/-- The path of a dotted module name. -/
def modulePath (name : List Char) : List Char :=
  Text.replaceChar '.' '/' name

/-- The candidates of a specifier, in order. -/
def candidates (language : Language) (root importer specifier : List Char) : List (List Char) :=
  let home := parentChars (slashed importer)
  match language, specifier with
  | .ecmascript, '.' :: _ => quotedCandidates (under home specifier)
  | .ecmascript, '/' :: _ => quotedCandidates (under root ('.' :: specifier))
  | .python, '.' :: rest =>
    let name := rest.dropWhile (· == '.')
    let directory := ascend home (rest.length - name.length)
    dottedCandidates (if name.isEmpty then normal directory else under directory (modulePath name))
  | .python, _ :: _ =>
    dottedCandidates (under root (modulePath specifier))
      ++ dottedCandidates (under home (modulePath specifier))
  | _, _ => []

end Resolve

/-! ## Resolution -/

/-- The tracked file that a specifier of an importer stands for. -/
def resolve? (index : PathIndex) (root importer : String) (language : Language)
    (specifier : String) : Option String :=
  (Resolve.candidates language root.toList importer.toList specifier.toList).findSome?
    fun candidate => index.find? (String.ofList (Path.keyChars candidate))

/-- The tracked file other than the importer that a specifier stands for.  The importer's own
tracked path is looked up where it is not given. -/
def resolveOther? (index : PathIndex) (root importer : String) (language : Language)
    (importerPath? : Option String) (specifier : String) : Option String :=
  (resolve? index root importer language specifier).filter fun target =>
    !(importerPath? <|> index.find? (Path.key importer)).any
      fun own => Path.key target == Path.key own

/-- Whether a specifier points into the tree by its form: packages have bare names. -/
def isLocal (language : Language) (specifier : String) : Bool :=
  match language with
  | .ecmascript => Text.beginsWith '.' specifier || Text.beginsWith '/' specifier
  | .python => Text.beginsWith '.' specifier
  | .none => false

end SourceAtlas
