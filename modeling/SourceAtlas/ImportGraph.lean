/-
# SourceAtlas.ImportGraph — who imports whom.

The nodes of the graph are paths.  An edge goes from an importer to the file it imports and never
from a file to itself; a missing import is a specifier that points into the tree and finds nothing.
Nodes, edges and missing imports are sets, so a graph holds no trace of the order in which it was
built.
-/
import SourceAtlas.OrderedSet

namespace SourceAtlas

/-- An import of one file by another. -/
structure Edge where
  source : String
  target : String
  deriving DecidableEq, Repr

instance : StrictLinear Edge :=
  StrictLinear.byKeys Edge.source Edge.target fun {a b} h h' => by
    cases a
    cases b
    cases h
    cases h'
    rfl

/-- A specifier that an importer writes and no file answers to. -/
structure Missing where
  source : String
  specifier : String
  deriving DecidableEq, Repr

instance : StrictLinear Missing :=
  StrictLinear.byKeys Missing.source Missing.specifier fun {a b} h h' => by
    cases a
    cases b
    cases h
    cases h'
    rfl

/-- A directed graph of imports. -/
structure ImportGraph where
  nodes : NameSet
  edges : OrderedSet Edge
  missing : OrderedSet Missing

namespace ImportGraph

/-- The graph without nodes. -/
def empty : ImportGraph := ⟨OrderedSet.empty, OrderedSet.empty, OrderedSet.empty⟩

instance : Inhabited ImportGraph := ⟨empty⟩

/-! ## Building -/

/-- Add a node. -/
def addNode (graph : ImportGraph) (node : String) : ImportGraph :=
  { graph with nodes := graph.nodes.insert node }

/-- Add an edge and its ends, unless it goes from a node to itself. -/
def addEdge (graph : ImportGraph) (source target : String) : ImportGraph :=
  if source = target then graph
  else
    { graph with
      nodes := (graph.nodes.insert source).insert target
      edges := graph.edges.insert ⟨source, target⟩ }

/-- Add a missing import and its source. -/
def addMissing (graph : ImportGraph) (source specifier : String) : ImportGraph :=
  { graph with
    nodes := graph.nodes.insert source
    missing := graph.missing.insert ⟨source, specifier⟩ }

/-! ## Looking -/

/-- The nodes that a node imports, in increasing order. -/
def importsOf (graph : ImportGraph) (source : String) : List String :=
  (graph.edges.toList.filter (·.source == source)).map (·.target)

/-- The nodes that import a node, in increasing order. -/
def importersOf (graph : ImportGraph) (target : String) : List String :=
  (graph.edges.toList.filter (·.target == target)).map (·.source)

/-- The specifiers that a node misses, in increasing order. -/
def missingOf (graph : ImportGraph) (source : String) : List String :=
  (graph.missing.toList.filter (·.source == source)).map (·.specifier)

/-- Every node with the nodes that import it. -/
def inboundIndex (graph : ImportGraph) : List (String × List String) :=
  graph.nodes.toList.map fun node => (node, graph.importersOf node)

/-- The nodes that no node imports. -/
def roots (graph : ImportGraph) : NameSet :=
  graph.nodes.filter fun node => !graph.edges.toList.any (·.target == node)

/-- The nodes at either end of an edge. -/
def connected (graph : ImportGraph) : NameSet :=
  OrderedSet.ofList (graph.edges.toList.flatMap fun edge => [edge.source, edge.target])

/-- The nodes that miss something, in increasing order and each once, with what they miss. -/
def missingBySource (graph : ImportGraph) : List (String × List String) :=
  (OrderedSet.ofList (graph.missing.toList.map (·.source))).toList.map fun source =>
    (source, graph.missingOf source)

/-- The sizes of the graph in one line. -/
def summary (graph : ImportGraph) : String :=
  "DependencyGraph(nodes=" ++ toString graph.nodes.size ++ ", edges=" ++ toString graph.edges.size
    ++ ", unresolved=" ++ toString graph.missing.size ++ ")"

end ImportGraph

end SourceAtlas
