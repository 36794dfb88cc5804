/-
# SourceAtlas.Render.Text — a report as plain text.

A summary, the critical files, the folder tree and the import trees, with an empty line between
them.
-/
import SourceAtlas.Render.Dependency
import SourceAtlas.Render.Folder
import SourceAtlas.Report

namespace SourceAtlas.Render

/-- What a text shows and how it is drawn. -/
structure TextOptions where
  connectors : Connectors
  showTree : Bool
  showDependencies : Bool
  includeUnresolved : Bool

/-- Everything, drawn with the connectors of a style. -/
def TextOptions.ofStyle (style : String) : TextOptions :=
  ⟨Connectors.ofStyle style, true, true, true⟩

/-- The lines of the summary. -/
def summaryLines (report : Report) : List String :=
  let mainFile := (report.mainFile.filter (!·.isEmpty)).getD "-"
  let mainSize := (report.mainFileSizeMb.map Number.shortest).getD "0"
  [ "Workspace: " ++ report.workspaceName,
    "Root: " ++ report.rootPath,
    "Generated: " ++ report.generatedAt,
    "Total files: " ++ toString report.totalFiles ++ " (" ++ Number.shortest report.totalSizeMb
      ++ " MB)",
    "Analyzed: " ++ toString report.analyzedFiles ++ " files ("
      ++ Number.shortest report.analyzedSizeMb ++ " MB)",
    "Main file: " ++ mainFile ++ " (" ++ mainSize ++ " MB)",
    "Graph: " ++ toString report.graphNodes.length ++ " nodes, "
      ++ toString report.graphEdges.length ++ " edges" ]
    ++ if report.cancelled then ["Scan cancelled: results are partial"] else []

/-- What is told of a critical file. -/
def criticalDetail (entry : CriticalEntry) : String :=
  match entry.score with
  | none => toString entry.size ++ " bytes"
  | some score =>
    "score " ++ Number.fixed 2 score ++ ", in " ++ toString entry.inbound ++ ", out "
      ++ toString entry.outbound

/-- A number, at least two characters wide. -/
def twoWide (n : Nat) : String :=
  if n < 10 then " " ++ toString n else toString n

/-- The lines of critical files, numbered from a position on. -/
def criticalLines (position : Nat) : List CriticalEntry → List String
  | [] => []
  | entry :: rest =>
    ("  " ++ twoWide position ++ ". " ++ entry.path ++ " (" ++ criticalDetail entry ++ ")")
      :: criticalLines (position + 1) rest

/-- The import trees of a report. -/
def dependencyLines (report : Report) (includeUnresolved : Bool) : List DependencyLine :=
  DependencyView.lines ⟨report.graph, includeUnresolved⟩

/-- All lines of a report. -/
def textLines (report : Report) (options : TextOptions) : List String :=
  let critical :=
    if report.criticalEntries.isEmpty then ["  None"] else criticalLines 1 report.criticalEntries
  let tree :=
    if options.showTree then
      ["", "Folder tree:", report.folderTree.name]
        ++ (folderLines [] report.folderTree).map (·.text options.connectors)
    else []
  let dependencies :=
    if options.showDependencies && !report.graphEdges.isEmpty then
      ["", "Dependencies:"]
        ++ (dependencyLines report options.includeUnresolved).map (·.text options.connectors)
    else []
  summaryLines report ++ ["", "Critical files:"] ++ critical ++ tree ++ dependencies

/-- A report as plain text. -/
def toText (report : Report) (options : TextOptions) : String :=
  "\n".intercalate (textLines report options)

end SourceAtlas.Render
