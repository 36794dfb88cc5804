/-
# SourceAtlas.Report — the result of a scan.

A report is made once and then only read.  Its totals count every regular file under the root; the
analysed figures count the tracked files.  Who imports whom is told by paths alone, so that a
report can be written out as it is and the import graph can be rebuilt from it.
-/
import SourceAtlas.FolderTree
import SourceAtlas.ImportGraph
import SourceAtlas.Rank

namespace SourceAtlas

/-- A node of the graph as renderers get it. -/
structure GraphNode where
  id : String
  label : String
  sizeMb : Float

/-- The result of one scan. -/
structure Report where
  workspaceName : String
  rootPath : String
  /-- The time of the scan, as text. -/
  generatedAt : String
  totalFiles : Int
  totalSizeMb : Float
  analyzedFiles : Int
  analyzedSizeMb : Float
  mainFile : Option String
  mainFileSizeMb : Option Float
  folderTree : FolderTree
  /-- The tracked files, the largest first. -/
  files : List TrackedFile
  /-- The nodes of the graph, by path. -/
  graphNodes : List GraphNode
  /-- The imports, by importer and imported file. -/
  graphEdges : List Edge
  criticalEntries : List CriticalEntry
  /-- What importers miss, by importer. -/
  unresolved : List (String × List String)
  /-- Whether the scan was cut short. -/
  cancelled : Bool

namespace Report

/-- The paths of the critical files. -/
def criticalFiles (report : Report) : List String :=
  report.criticalEntries.map (·.path)

/-- The tracked file of a path. -/
def file? (report : Report) (path : String) : Option TrackedFile :=
  report.files.find? (·.path == path)

/-- The import graph that the report tells of. -/
def graph (report : Report) : ImportGraph :=
  let withNodes := report.graphNodes.foldl (fun g node => g.addNode node.id) ImportGraph.empty
  let withEdges :=
    report.graphEdges.foldl (fun g edge => g.addEdge edge.source edge.target) withNodes
  report.unresolved.foldl
    (fun g (source, specifiers) => specifiers.foldl (fun g s => g.addMissing source s) g) withEdges

end Report

end SourceAtlas
