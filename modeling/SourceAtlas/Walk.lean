/-
# SourceAtlas.Walk — every regular file below a root.

The walk goes through a tree in the order of names, folder by folder.  It yields each regular file
with its size, and a path without a size for each entry that cannot be examined and each folder
that cannot be listed.  Links and special files are passed over.  Before each entry it looks at the
signal, and from the moment that is set it yields nothing more.

A walk is then sorted out: every file counts in the totals, those outside excluded folders make up
the folder tree, and those of them with an active extension are tracked.

Folders may be nested to any depth: a runtime's limit on how deep functions may call themselves lies
outside the model.
-/
import SourceAtlas.FileSystem.Entry
import SourceAtlas.Signal
import SourceAtlas.TrackedFile

namespace SourceAtlas

/-- What the walk yields: a path below the root, and the size of the file there; no size tells of a
failure. -/
structure Found where
  path : String
  size : Option Nat
  deriving DecidableEq, Repr

namespace Walk

/-! ## Without a signal -/

mutual

/-- What an entry yields, behind the path of its folder. -/
def listEntry (lead : String) : Entry → List Found
  | .file name faults content =>
    [⟨lead ++ name, if faults.examine then none else some content.size⟩]
  | .folder name faults entries =>
    if faults.examine || faults.list then [⟨lead ++ name, none⟩]
    else listAll (lead ++ name ++ "/") entries
  | .link name faults _ => if faults.examine then [⟨lead ++ name, none⟩] else []
  | .special name faults => if faults.examine then [⟨lead ++ name, none⟩] else []

/-- What entries yield, one after another. -/
def listAll (lead : String) : List Entry → List Found
  | [] => []
  | entry :: rest => listEntry lead entry ++ listAll lead rest

end

/-- What the tree below a root yields. -/
def listing (root : Entry) : List Found :=
  if root.faults.list then [⟨"", none⟩] else listAll "" root.ordered.entries

/-! ## Under a signal -/

mutual

/-- What an entry yields under a signal, and the signal afterwards. -/
def walkEntry (lead : String) : Entry → Signal → List Found × Signal
  | .file name faults content, signal =>
    ([⟨lead ++ name, if faults.examine then none else some content.size⟩], signal)
  | .folder name faults entries, signal =>
    if faults.examine || faults.list then ([⟨lead ++ name, none⟩], signal)
    else walkAll (lead ++ name ++ "/") entries signal
  | .link name faults _, signal =>
    (if faults.examine then [⟨lead ++ name, none⟩] else [], signal)
  | .special name faults, signal =>
    (if faults.examine then [⟨lead ++ name, none⟩] else [], signal)

/-- What entries yield under a signal that is looked at before each. -/
def walkAll (lead : String) : List Entry → Signal → List Found × Signal
  | [], signal => ([], signal)
  | entry :: rest, signal =>
    match signal.look with
    | (true, signal) => ([], signal)
    | (false, signal) =>
      -- the entry is still seen through when its own examination sets the signal
      let first := walkEntry lead entry (signal.examine (lead ++ entry.name))
      let others := walkAll lead rest first.2
      (first.1 ++ others.1, others.2)

end

/-- What the tree below a root yields under a signal, and the signal afterwards. -/
def listingUnder (signal : Signal) (root : Entry) : List Found × Signal :=
  if root.faults.list then ([⟨"", none⟩], signal) else walkAll "" root.ordered.entries signal

/-! ## Sorting out -/

/-- Whether a segment of a path names one of the folders, in any case. -/
def isExcluded (folders : List String) (path : String) : Bool :=
  let excluded := folders.map Text.lower
  (Text.splitAt '/' path).any fun segment =>
    !segment.isEmpty && excluded.contains (Text.lower segment)

/-- What a walk comes to. -/
structure Result where
  /-- The files to analyse. -/
  tracked : List TrackedFile
  /-- The paths outside excluded folders. -/
  folderPaths : List String
  totalFiles : Nat
  totalSize : Nat
  /-- The number of failures. -/
  skipped : Nat
  /-- Whether the walk was cut short. -/
  cancelled : Bool

/-- The paths and sizes of the files among what a walk yields. -/
def sizedFiles (found : List Found) : List (String × Nat) :=
  found.filterMap fun f => f.size.map (f.path, ·)

/-- A file as it is before the graph is known. -/
def trackedFile (file : String × Nat) : TrackedFile :=
  ⟨file.1, TrackedFile.extensionOf file.1, (file.2 : Int), [], []⟩

/-- What yielded files come to. -/
def classify (folders extensions : List String) (found : List Found) (cancelled : Bool) : Result :=
  let files := sizedFiles found
  let kept := files.filter fun file => !isExcluded folders file.1
  let active := extensions.map Text.lower
  { tracked := (kept.map trackedFile).filter fun file => active.contains file.extension
    folderPaths := kept.map (·.1)
    totalFiles := files.length
    totalSize := (files.map (·.2)).foldl (· + ·) 0
    skipped := (found.filter (·.size.isNone)).length
    cancelled }

/-- The bytes of the tracked files. -/
def Result.analyzedSize (result : Result) : Int :=
  (result.tracked.map (·.size)).foldl (· + ·) 0

/-- Walk the tree below a root and sort out what it yields; the signal is looked at once more at the
end. -/
def files (folders extensions : List String) (signal : Signal) (root : Entry) : Result × Signal :=
  let (found, signal) := listingUnder signal root
  let (cancelled, signal) := signal.look
  (classify folders extensions found cancelled, signal)

end Walk

end SourceAtlas
