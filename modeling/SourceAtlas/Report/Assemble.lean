/-
# SourceAtlas.Report.Assemble — from tracked files and their specifiers to a report.

The pipeline behind a walk.  All tracked files are indexed first; only then is any specifier
resolved, because the file that answers to it may be any of them.  Adjacency is read off the
finished graph, and the report is put together from what the walk and the graph know.
-/
import SourceAtlas.Reading.Pool
import SourceAtlas.Report
import SourceAtlas.Resolve

namespace SourceAtlas

/-- What a walk tells about the tree besides the tracked files. -/
structure WalkTotals where
  /-- The paths of all files outside excluded folders. -/
  folderPaths : List String
  /-- The number of all regular files. -/
  totalFiles : Int
  /-- The bytes of all regular files. -/
  totalSize : Int

namespace ImportGraph

/-- Take in one specifier of a file: an edge if it resolves, a missing import if it points into the
tree and does not. -/
def addSpecifier (index : PathIndex) (root : String) (file : TrackedFile) (graph : ImportGraph)
    (specifier : String) : ImportGraph :=
  match resolve? index root (Path.join root file.path) file.language specifier with
  | some target => graph.addEdge file.path target
  | none =>
    if isLocal file.language specifier then graph.addMissing file.path specifier else graph

/-- The import graph of a list of files. -/
def ofFiles (root : String) (files : List TrackedFile) (specifiers : SpecifierMap) : ImportGraph :=
  let index := PathIndex.ofFiles root (files.map (·.path))
  let nodes := files.foldl (fun graph file => graph.addNode file.path) empty
  files.foldl
    (fun graph file => (specifiers.of file.path).toList.foldl (addSpecifier index root file) graph)
    nodes

/-- A file with the adjacency that the graph gives it. -/
def finalize (graph : ImportGraph) (file : TrackedFile) : TrackedFile :=
  { file with imports := graph.importsOf file.path, importedBy := graph.importersOf file.path }

end ImportGraph

namespace Report

/-- A file as a node of the graph. -/
def nodeOf (file : TrackedFile) : Except SizeFault GraphNode := do
  return ⟨file.path, file.label, ← megabytes file.size⟩

/-- The size of the main file. -/
def mainSize (files : List TrackedFile) (mainFile : Option String) :
    Except SizeFault (Option Float) :=
  match mainFile.bind fun path => files.reverse.find? (·.path == path) with
  | some file => some <$> megabytes file.size
  | none => .ok none

/-- What the owner of a scan decides about its report. -/
structure Choice where
  /-- The configured main file. -/
  mainFile : Option String
  /-- How many critical files are told. -/
  criticalLimit : Int

/-- The report of finished files.  The root is given in tidy form. -/
def assemble (root generatedAt : String) (totals : WalkTotals) (analyzedSize : Int)
    (files : List TrackedFile) (graph : ImportGraph) (choice : Choice) (cancelled : Bool) :
    Except SizeFault Report := do
  let mainFile := selectMain? files choice.mainFile
  let mainFileSizeMb ← mainSize files mainFile
  let criticalEntries ← rankCritical files mainFile choice.criticalLimit
  let totalSizeMb ← megabytes totals.totalSize
  let analyzedSizeMb ← megabytes analyzedSize
  let graphNodes ← (files.mergeSort fun a b => a.path ≤ b.path).mapM nodeOf
  let name := Path.name root
  return {
    workspaceName := if name.isEmpty then root else name
    rootPath := root
    generatedAt
    totalFiles := totals.totalFiles
    totalSizeMb
    analyzedFiles := files.length
    analyzedSizeMb
    mainFile
    mainFileSizeMb
    folderTree := FolderTree.ofPaths totals.folderPaths "/"
    files := files.mergeSort isLarger
    graphNodes
    graphEdges := graph.edges.toList
    criticalEntries
    unresolved := graph.missingBySource
    cancelled }

/-- The report of tracked files whose specifiers are known. -/
def ofSpecifiers (root generatedAt : String) (totals : WalkTotals) (files : List TrackedFile)
    (specifiers : SpecifierMap) (choice : Choice) (cancelled : Bool) : Except SizeFault Report :=
  let graph := ImportGraph.ofFiles root files specifiers
  let analyzedSize := (files.map (·.size)).foldl (· + ·) 0
  assemble root generatedAt totals analyzedSize (files.map graph.finalize) graph choice cancelled

end Report

end SourceAtlas
