/-
# SourceAtlas.Render.Json — a report as a JSON document.

The members stand in one fixed order.  Scores are rounded to four places, and the missing imports
are listed by importer.
-/
import SourceAtlas.Json.Document
import SourceAtlas.Report

namespace SourceAtlas

open Json (Document)

/-- A list of names. -/
def Json.Document.ofNames (names : List String) : Document :=
  .array (names.map .text)

/-- A name that may be missing. -/
def Json.Document.ofName? (name : Option String) : Document :=
  match name with
  | some s => .text s
  | none => .null

/-- A number that may be missing. -/
def Json.Document.ofFloat? (x : Option Float) : Document :=
  match x with
  | some x => .float x
  | none => .null

/-- A tracked file. -/
def TrackedFile.toDocument (file : TrackedFile) : Except SizeFault Document := do
  return .object [
    ("path", .text file.path),
    ("extension", .text file.extension),
    ("sizeBytes", .int file.size),
    ("sizeMb", .float (← megabytes file.size)),
    ("imports", .ofNames file.imports),
    ("importedBy", .ofNames file.importedBy)]

/-- A ranked file. -/
def CriticalEntry.toDocument (entry : CriticalEntry) : Document :=
  .object [
    ("path", .text entry.path),
    ("inboundCount", .int entry.inbound),
    ("outboundCount", .int entry.outbound),
    ("sizeBytes", .int entry.size),
    ("score", .ofFloat? (entry.score.map (Number.roundTo 4)))]

mutual

/-- A folder. -/
def FolderTree.toDocument : FolderTree → Document
  | .node name files folders =>
    .object [
      ("name", .text name),
      ("files", .ofNames files),
      ("folders", .array (FolderTree.toDocuments folders))]

/-- Several folders. -/
def FolderTree.toDocuments : List FolderTree → List Document
  | [] => []
  | folder :: rest => FolderTree.toDocument folder :: FolderTree.toDocuments rest

end

namespace Report

/-- A node of the graph. -/
def nodeDocument (node : GraphNode) : Document :=
  .object [("id", .text node.id), ("label", .text node.label), ("sizeMb", .float node.sizeMb)]

/-- An import. -/
def edgeDocument (edge : Edge) : Document :=
  .object [("source", .text edge.source), ("target", .text edge.target)]

/-- The members of a report's document. -/
def members (report : Report) : Except SizeFault (List (String × Document)) := do
  let files ← report.files.mapM TrackedFile.toDocument
  let unresolved := report.unresolved.mergeSort fun a b => a.1 ≤ b.1
  return [
    ("workspaceName", .text report.workspaceName),
    ("rootPath", .text report.rootPath),
    ("generatedAt", .text report.generatedAt),
    ("totalFiles", .int report.totalFiles),
    ("analyzedFiles", .int report.analyzedFiles),
    ("totalSizeMb", .float report.totalSizeMb),
    ("analyzedSizeMb", .float report.analyzedSizeMb),
    ("mainFile", .ofName? report.mainFile),
    ("mainFileSizeMb", .ofFloat? report.mainFileSizeMb),
    ("folderTree", report.folderTree.toDocument),
    ("files", .array files),
    ("graphNodes", .array (report.graphNodes.map nodeDocument)),
    ("graphLinks", .array (report.graphEdges.map edgeDocument)),
    ("criticalFiles", .ofNames report.criticalFiles),
    ("criticalEntries", .array (report.criticalEntries.map CriticalEntry.toDocument)),
    ("unresolved", .object (unresolved.map fun (source, names) => (source, .ofNames names))),
    ("cancelled", .bool report.cancelled)]

/-- The JSON text of a report, with or without what is missing. -/
def toJson (report : Report) (layout : Document.Layout) (includeUnresolved : Bool) :
    Except SizeFault String := do
  let all ← report.members
  let kept := if includeUnresolved then all else all.filter (·.1 != "unresolved")
  return (Document.object kept).render layout

end Report

end SourceAtlas
