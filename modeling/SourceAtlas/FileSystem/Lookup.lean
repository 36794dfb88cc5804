/-
# SourceAtlas.FileSystem.Lookup — where a path leads.

A path is followed segment by segment from a folder.  Symbolic links are followed as they are met,
so that `..` behind a link leads out of the link's target; after forty links a path is given up.
What is found is told by its place: the names from the top of the tree, with no link among them.
-/
import SourceAtlas.FileSystem.Entry
import SourceAtlas.Path

namespace SourceAtlas

/-- Why a path leads nowhere. -/
inductive LookupFault where
  | notFound
  | notFolder
  | tooManyLinks
  deriving DecidableEq, Repr

/-- Where a path leads. -/
inductive Location where
  /-- To the entry at a place. -/
  | present (place : List String)
  /-- To a name that its folder does not hold. -/
  | absent (parent : List String) (name : String)
  deriving DecidableEq, Repr

/-- The file system as it is seen from a current folder. -/
structure FileSystem where
  /-- The folder at the top. -/
  top : Entry
  /-- The place of the current folder. -/
  current : List String
  /-- The home folder of each user who has one; the user of no name is the one at work. -/
  home? : String → Option String

namespace FileSystem

/-- The number of links that are followed on one path. -/
def linkLimit : Nat := 40

/-- The segments of a path that mean something. -/
def segmentsOf (path : String) : List String :=
  (Path.tidySegments path.toList).map String.ofList

/-- Follow segments from a place, which is given with the last name first. -/
def follow (top : Entry) (links : Nat) (place : List String) (segments : List String) :
    Except LookupFault Location :=
  match segments with
  | [] => .ok (.present place.reverse)
  | segment :: rest =>
    if segment = ".." then follow top links place.tail rest
    else
      match top.at? (segment :: place).reverse with
      | none => if rest.isEmpty then .ok (.absent place.reverse segment) else .error .notFound
      | some (.folder _ _ _) => follow top links (segment :: place) rest
      | some (.link _ _ target) =>
        match links with
        | 0 => .error .tooManyLinks
        | links + 1 =>
          -- a relative target is read from the folder that holds the link
          let start := if Path.isAbsolute target.toList then [] else place
          follow top links start (segmentsOf target ++ rest)
      | some _ =>
        if rest.isEmpty then .ok (.present (segment :: place).reverse) else .error .notFolder
termination_by (links, segments.length)

/-- Where a path leads, seen from the current folder. -/
def locate (fs : FileSystem) (path : String) : Except LookupFault Location :=
  let start := if Path.isAbsolute path.toList then [] else fs.current.reverse
  follow fs.top linkLimit start (segmentsOf path)

/-- The place that a path leads to. -/
def place? (fs : FileSystem) (path : String) : Option (List String) :=
  match fs.locate path with
  | .ok (.present place) => some place
  | _ => none

/-- The entry that a path leads to. -/
def entry? (fs : FileSystem) (path : String) : Option Entry :=
  (fs.place? path).bind fs.top.at?

/-- Whether a path leads to a folder. -/
def isFolder (fs : FileSystem) (path : String) : Bool :=
  (fs.entry? path).any (·.isFolder)

/-- Whether a path leads to a file. -/
def isFile (fs : FileSystem) (path : String) : Bool :=
  match fs.entry? path with
  | some (.file _ _ _) => true
  | _ => false

/-- The absolute path of a place. -/
def pathOf (place : List String) : String :=
  "/" ++ "/".intercalate place

/-- The bytes of the file that a path leads to, if they can be read. -/
def bytes? (fs : FileSystem) (path : String) : Option (List UInt8) :=
  match fs.entry? path with
  | some (.file _ faults content) => if faults.read then none else some content.toBytes
  | _ => none

/-- The file system with a change to its tree. -/
def change (fs : FileSystem) (f : Entry → Entry) : FileSystem :=
  { fs with top := f fs.top }

/-! ## Writing -/

/-- Why a file cannot be written. -/
inductive WriteFault where
  | notFound
  | notFolder
  | isFolder
  | tooManyLinks
  deriving DecidableEq, Repr

/-- The number and the words that systems have for the fault. -/
def WriteFault.description : WriteFault → Nat × String
  | notFound => (2, "No such file or directory")
  | notFolder => (20, "Not a directory")
  | isFolder => (21, "Is a directory")
  | tooManyLinks => (40, "Too many levels of symbolic links")

/-- Write a file: a new one, or one that is there already, links being followed. -/
def write (fs : FileSystem) (path : String) (bytes : List UInt8) : Except WriteFault FileSystem :=
  match fs.locate path with
  | .error .notFound => .error .notFound
  | .error .notFolder => .error .notFolder
  | .error .tooManyLinks => .error .tooManyLinks
  | .ok (.absent parent name) =>
    .ok (fs.change (Entry.put parent (.file name Faults.none (.bytes bytes))))
  | .ok (.present place) =>
    match fs.top.at? place with
    | some (.file name faults _) =>
      .ok (fs.change (Entry.changeAt (fun _ => .file name faults (.bytes bytes)) place))
    | _ => .error .isFolder

end FileSystem

end SourceAtlas
