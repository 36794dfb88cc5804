/-
# SourceAtlas.FolderTree — directories rebuilt from paths.

A folder lists its files, with repetitions, and its folders, each once; both lists are in
increasing order.  Paths are cut at slashes, and empty segments are dropped.

Trees may be of any depth: a runtime's limit on how deep functions may call themselves lies outside
the model.
-/
import SourceAtlas.Text.Piece

namespace SourceAtlas

/-- A directory with its files and directories. -/
inductive FolderTree where
  | node (name : String) (files : List String) (folders : List FolderTree)
  deriving Inhabited

namespace FolderTree

/-- The name of the folder. -/
def name : FolderTree → String
  | node name _ _ => name

/-- The files directly in the folder. -/
def files : FolderTree → List String
  | node _ files _ => files

/-- The folders directly in the folder. -/
def folders : FolderTree → List FolderTree
  | node _ _ folders => folders

/-- Put a name at its place in an increasing list, before its equals. -/
def insertName (name : String) : List String → List String
  | [] => [name]
  | other :: rest => if name ≤ other then name :: other :: rest else other :: insertName name rest

/-- Change the folder of a name in an increasing list of folders; it is made if it is not there. -/
def changeFolder (name : String) (change : FolderTree → FolderTree) :
    List FolderTree → List FolderTree
  | [] => [change (node name [] [])]
  | folder :: rest =>
    if name = folder.name then change folder :: rest
    -- all later names are greater still, so the folder is missing and belongs here
    else if name < folder.name then change (node name [] []) :: folder :: rest
    else folder :: changeFolder name change rest

/-- Add the file that a list of segments leads to. -/
def insert : List String → FolderTree → FolderTree
  | [], tree => tree
  | [file], node name files folders => node name (insertName file files) folders
  | segment :: rest, node name files folders =>
    node name files (changeFolder segment (insert rest) folders)

/-- The segments of a path that are not empty. -/
def segmentsOf (path : String) : List String :=
  (Text.splitAt '/' path).filter (!·.isEmpty)

/-- The tree of a list of paths. -/
def ofPaths (paths : List String) (name : String) : FolderTree :=
  paths.foldl (fun tree path => insert (segmentsOf path) tree) (node name [] [])

mutual

/-- The paths of the files in the tree, behind a leading text. -/
def paths (lead : String) : FolderTree → List String
  | node _ files folders => files.map (lead ++ ·) ++ pathsOfAll lead folders

/-- The paths of the files in several folders. -/
def pathsOfAll (lead : String) : List FolderTree → List String
  | [] => []
  | folder :: rest => paths (lead ++ folder.name ++ "/") folder ++ pathsOfAll lead rest

end

mutual

/-- The number of files in the tree. -/
def count : FolderTree → Nat
  | node _ files folders => files.length + countOfAll folders

/-- The number of files in several folders. -/
def countOfAll : List FolderTree → Nat
  | [] => 0
  | folder :: rest => count folder + countOfAll rest

end

/-- The folder of a name directly in the folder. -/
def folder? (tree : FolderTree) (name : String) : Option FolderTree :=
  tree.folders.find? (·.name == name)

end FolderTree

end SourceAtlas
