/-
# SourceAtlas.Render.Mermaid — the import graph as a Mermaid flowchart.

Every file that is shown gets an identifier of its own: its path reduced to ASCII letters, digits
and low lines, with a number behind it where the plain form is taken.  Files may be grouped by the
directory at the top of their path.
-/
import SourceAtlas.Report

namespace SourceAtlas.Render

/-! ## Identifiers -/

/-- What a character of a path becomes in an identifier. -/
def identifierChar? (c : Char) : Option Char :=
  if c == '/' || c == '\\' || c == '.' || c == '-' then some '_'
  else if c.isAlphanum || c == '_' then some c
  else none

/-- The plain identifier of a value: never empty, and with a letter in front. -/
def plainIdentifier (value : String) : String :=
  match value.toList.filterMap identifierChar? with
  | [] => "unknown"
  | c :: rest => if c.isAlpha then String.ofList (c :: rest) else "n_" ++ String.ofList (c :: rest)

/-- The spellings of an identifier in the order in which they are tried, from a number on. -/
def spelling (plain : String) (number : Nat) : String :=
  if number ≤ 1 then plain else plain ++ "_" ++ toString number

/-- The first spelling that is not taken, among as many as it takes. -/
def freeSpelling (plain : String) (taken : List String) : Nat → Nat → String
  | 0, number => spelling plain number
  | tries + 1, number =>
    if taken.contains (spelling plain number) then freeSpelling plain taken tries (number + 1)
    else spelling plain number

/-- An identifier for a value that is not among those taken. -/
def identifierFor (taken : List String) (value : String) : String :=
  -- with `taken.length` names taken, one of the first `taken.length + 1` spellings is free
  freeSpelling (plainIdentifier value) taken taken.length 1

/-- Identifiers for values, each different from those taken and from those before it; with them all
that are taken now. -/
def identifiersFor (taken : List String) : List String → List String × List String
  | [] => ([], taken)
  | value :: rest =>
    let id := identifierFor taken value
    let more := identifiersFor (id :: taken) rest
    (id :: more.1, more.2)

/-! ## The flowchart -/

/-- How a flowchart is drawn. -/
structure MermaidOptions where
  orientation : String
  groupByDirectory : Bool
  showAll : Bool
  highlightCritical : Bool

/-- The paths that are shown, in increasing order: all, or those at an edge and the main file. -/
def shownPaths (report : Report) (showAll : Bool) : List String :=
  if showAll then (report.graphNodes.map (·.id)).mergeSort (· ≤ ·)
  else
    (OrderedSet.ofList
      (report.graphEdges.flatMap (fun edge => [edge.source, edge.target])
        ++ report.mainFile.toList)).toList

/-- A named node of the flowchart. -/
structure NamedPath where
  path : String
  id : String
  deriving DecidableEq, Repr

/-- The identifier of a path; of two nodes with one path the later names it. -/
def idOf? (named : List NamedPath) (path : String) : Option String :=
  (named.reverse.find? (·.path == path)).map (·.id)

/-- The line that defines a node. -/
def definition (named : List NamedPath) (path : String) : String :=
  (idOf? named path).getD "" ++ "[\"" ++ path ++ "\"]"

/-- The directory at the top of a path; files without one are in the root's group. -/
def topDirectory (path : String) : String :=
  match Text.splitAt '/' path with
  | top :: _ :: _ => top
  | _ => "root"

/-- The groups of paths, in increasing order of their names. -/
def groupsOf (paths : List String) : List (String × List String) :=
  (OrderedSet.ofList (paths.map topDirectory)).toList.map fun group =>
    (group, paths.filter (topDirectory · == group))

/-- The lines of a group. -/
def groupLines (named : List NamedPath) (id : String) (group : String × List String) :
    List String :=
  ("    subgraph " ++ id ++ "[" ++ group.1 ++ "]")
    :: group.2.map (fun path => "        " ++ definition named path) ++ ["    end"]

/-- The lines that define the nodes. -/
def definitionLines (named : List NamedPath) (taken : List String) (paths : List String)
    (groupByDirectory : Bool) : List String :=
  if groupByDirectory then
    let groups := groupsOf paths
    let ids := (identifiersFor taken (groups.map fun group => "dir_" ++ group.1)).1
    (ids.zip groups).flatMap fun (id, group) => groupLines named id group
  else paths.map fun path => "    " ++ definition named path

/-- The line of an import, if both ends are shown. -/
def edgeLine? (named : List NamedPath) (edge : Edge) : Option String := do
  return "    " ++ (← idOf? named edge.source) ++ " --> " ++ (← idOf? named edge.target)

/-- The line that styles a node. -/
def styleLine (id style : String) : String :=
  "    style " ++ id ++ " " ++ style

/-- The lines that style critical files and, last, the main file. -/
def styleLines (named : List NamedPath) (report : Report) : List String :=
  let critical := report.criticalFiles.filter (some · != report.mainFile)
  critical.filterMap (fun path =>
      (idOf? named path).map (styleLine · "stroke:#cc6600,stroke-width:2px"))
    ++ ((report.mainFile.bind (idOf? named)).map
      (styleLine · "stroke:#0066cc,stroke-width:3px")).toList

/-- All lines of a flowchart. -/
def mermaidLines (report : Report) (options : MermaidOptions) : List String :=
  let paths := shownPaths report options.showAll
  let (ids, taken) := identifiersFor [] paths
  let named := (paths.zip ids).map fun (path, id) => ⟨path, id⟩
  let styles := if options.highlightCritical then styleLines named report else []
  ("flowchart " ++ options.orientation)
    :: definitionLines named taken paths options.groupByDirectory
    ++ "" :: report.graphEdges.filterMap (edgeLine? named)
    ++ if styles.isEmpty then [] else "" :: styles

/-- The import graph of a report as a flowchart. -/
def toMermaid (report : Report) (options : MermaidOptions) : String :=
  "\n".intercalate (mermaidLines report options)

end SourceAtlas.Render
