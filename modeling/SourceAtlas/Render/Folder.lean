/-
# SourceAtlas.Render.Folder — the folder tree, drawn.

Below a folder come its folders, each with a slash behind its name and followed by what it holds,
and then its files.
-/
import SourceAtlas.FolderTree
import SourceAtlas.Render.Connector

namespace SourceAtlas.Render

/-- A line of a drawn folder tree. -/
structure FolderLine where
  /-- For every level above, whether its item was the last of its parent. -/
  levels : List Bool
  /-- Whether the item is the last of its parent. -/
  isLast : Bool
  label : String
  deriving DecidableEq, Repr

/-- The line as text. -/
def FolderLine.text (connectors : Connectors) (line : FolderLine) : String :=
  connectors.lead line.levels line.isLast ++ line.label

/-- The lines of files, which come last below their folder. -/
def fileLines (levels : List Bool) : List String → List FolderLine
  | [] => []
  | file :: rest => ⟨levels, rest.isEmpty, file⟩ :: fileLines levels rest

mutual

/-- The lines below a folder. -/
def folderLines (levels : List Bool) : FolderTree → List FolderLine
  | .node _ files folders => subfolderLines levels files.isEmpty folders ++ fileLines levels files

/-- The lines of folders; `noFiles` tells whether nothing else follows them. -/
def subfolderLines (levels : List Bool) (noFiles : Bool) : List FolderTree → List FolderLine
  | [] => []
  | folder :: rest =>
    let isLast := rest.isEmpty && noFiles
    ⟨levels, isLast, folder.name ++ "/"⟩ :: folderLines (levels ++ [isLast]) folder
      ++ subfolderLines levels noFiles rest

end

end SourceAtlas.Render
