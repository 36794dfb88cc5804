/-
# SourceAtlas.Render.Dependency — import trees.

Every file that has imports and no importer starts a tree; what no such file reaches follows, in
order of paths.  Below a file stand its imports and then what it misses.  A file is expanded once:
where it stands again it is marked, with one mark below itself and another elsewhere, and a marked
line has nothing below it.  Lines are kept as data, so that it can be said of each what it tells of
whom.
-/
import SourceAtlas.ImportGraph
import SourceAtlas.Render.Connector

namespace SourceAtlas.Render

/-- Why a node is not expanded where it stands. -/
inductive Mark where
  /-- It is expanded here, or has nothing below it. -/
  | none
  /-- It stands below itself. -/
  | cycle
  /-- It was expanded before. -/
  | seen
  deriving DecidableEq, Repr

/-- The text of a mark. -/
def Mark.text : Mark → String
  | none => ""
  | cycle => " [*]"
  | seen => " [^]"

/-- Where an item stands below its parent. -/
structure Place where
  /-- For every level above, whether its item was the last of its parent. -/
  levels : List Bool
  /-- Whether the item is the last of its parent. -/
  isLast : Bool
  deriving DecidableEq, Repr

/-- The levels of the items below an item; below the head of a tree there are none. -/
def Place.below (place : Option Place) : List Bool :=
  match place with
  | some p => p.levels ++ [p.isLast]
  | none => []

/-- A line of the import trees. -/
inductive DependencyLine where
  /-- The gap between two trees. -/
  | gap
  /-- The head of a tree. -/
  | head (node : String) (mark : Mark)
  /-- A node below the nodes of a path, the nearest first. -/
  | item (ancestors : List String) (node : String) (place : Place) (mark : Mark)
  /-- A specifier that its importer misses. -/
  | missing (ancestors : List String) (specifier : String) (place : Place)
  deriving DecidableEq, Repr

/-- The line as text. -/
def DependencyLine.text (connectors : Connectors) : DependencyLine → String
  | gap => ""
  | head node mark => node ++ mark.text
  | item _ node place mark => connectors.lead place.levels place.isLast ++ node ++ mark.text
  | missing _ specifier place =>
    connectors.lead place.levels place.isLast ++ specifier ++ " [UNRESOLVED]"

/-- What the trees are drawn from: a graph, and whether missing imports are shown. -/
structure DependencyView where
  graph : ImportGraph
  showMissing : Bool

namespace DependencyView

/-- The missing imports that are shown below a node. -/
def missingOf (view : DependencyView) (node : String) : List String :=
  if view.showMissing then view.graph.missingOf node else []

/-- The mark of a node below its ancestors, given the nodes that were expanded before. -/
def markOf (view : DependencyView) (ancestors expanded : List String) (node : String) : Mark :=
  if ancestors.contains node then .cycle
  else if expanded.contains node
      && !((view.graph.importsOf node).isEmpty && (view.missingOf node).isEmpty) then .seen
  else .none

/-- The lines of the missing imports of a node, which come last below it. -/
def missingLines (ancestors : List String) (levels : List Bool) : List String → List DependencyLine
  | [] => []
  | specifier :: rest =>
    .missing ancestors specifier ⟨levels, rest.isEmpty⟩ :: missingLines ancestors levels rest

/-- Draw nodes one after another; each drawing tells which nodes are expanded after it.
`nothingFollows` tells whether the last node is the last item of its parent. -/
def drawAll (draw : List String → Bool → String → List DependencyLine × List String)
    (nothingFollows : Bool) : List String → List String → List DependencyLine × List String
  | [], expanded => ([], expanded)
  | node :: rest, expanded =>
    let first := draw expanded (rest.isEmpty && nothingFollows) node
    let others := drawAll draw nothingFollows rest first.2
    (first.1 ++ others.1, others.2)

/-- The line of a node at its place, the head of a tree having none. -/
def lineOf (ancestors : List String) (node : String) (place : Option Place) (mark : Mark) :
    DependencyLine :=
  match place with
  | some p => .item ancestors node p mark
  | none => .head node mark

/-- The lines of a node and of what is below it, and the nodes that are expanded afterwards.
`depth` bounds the number of nodes on a path below this one.  A runtime's limit on how deep functions
may call themselves, which a long chain of imports can reach, lies outside the model. -/
def drawNode (view : DependencyView) (depth : Nat) (ancestors expanded : List String)
    (place : Option Place) (node : String) : List DependencyLine × List String :=
  match depth with
  | 0 => ([], expanded)
  | depth + 1 =>
    let mark := view.markOf ancestors expanded node
    let line := lineOf ancestors node place mark
    if mark = .none then
      let levels := Place.below place
      let missing := view.missingOf node
      let children := drawAll
        (fun expanded isLast child =>
          view.drawNode depth (node :: ancestors) expanded (some ⟨levels, isLast⟩) child)
        missing.isEmpty (view.graph.importsOf node) (node :: expanded)
      (line :: children.1 ++ missingLines (node :: ancestors) levels missing, children.2)
    else ([line], expanded)

/-- The lines of a tree and the nodes that are expanded afterwards. -/
def drawTree (view : DependencyView) (expanded : List String) (node : String) :
    List DependencyLine × List String :=
  -- the nodes of a path are distinct up to a marked one, so no path is longer than this
  view.drawNode (view.graph.nodes.size + 1) [] expanded none node

/-- Add a tree to the lines before it. -/
def addTree (view : DependencyView) (drawn : List DependencyLine × List String) (node : String) :
    List DependencyLine × List String :=
  let tree := view.drawTree drawn.2 node
  ((if drawn.1.isEmpty then tree.1 else drawn.1 ++ .gap :: tree.1), tree.2)

/-- Add a tree for a node that is left: one that has imports and is not expanded yet. -/
def addLeftover (view : DependencyView) (drawn : List DependencyLine × List String)
    (node : String) : List DependencyLine × List String :=
  if drawn.2.contains node || (view.graph.importsOf node).isEmpty then drawn
  else view.addTree drawn node

/-- The nodes that start a tree: those with an edge and without an importer. -/
def heads (view : DependencyView) : List String :=
  (view.graph.roots.filter view.graph.connected.contains).toList

/-- All lines. -/
def lines (view : DependencyView) : List DependencyLine :=
  (view.graph.connected.toList.foldl view.addLeftover
    (view.heads.foldl view.addTree ([], []))).1

end DependencyView

end SourceAtlas.Render
