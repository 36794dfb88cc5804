/-
# SourceAtlas.ImportGraph.Memory — the import graph as objects that can be changed in place.

Whoever asks a graph gets sets, lists and tables, which are objects of their own: changing one of
them is seen by all who hold it.  A graph is therefore a place in memory.  It keeps one set of nodes
and two tables of sets, for the edges and for the missing imports, and it answers a question by a
new object that nothing of its own is part of.  Objects that were given away may be changed at will,
and so may all that is reached from them.
-/
import SourceAtlas.ImportGraph

namespace SourceAtlas.ImportGraph

/-! ## Objects and questions -/

/-- Where an object is. -/
abbrev Address := Nat

/-- An object that can be changed in place. -/
inductive Object where
  | set (names : NameSet)
  | list (names : List String)
  /-- A table from names to other objects. -/
  | table (rows : List (String × Address))

/-- The addresses that an object leads to. -/
def Object.references : Object → List Address
  | table rows => rows.map (·.2)
  | _ => []

/-- The questions that a graph answers. -/
inductive Query where
  | targetsOf (source : String)
  | importsOf (source : String)
  | missingOf (source : String)
  | missing
  | inboundIndex
  | roots
  | edges
  | connected
  | edgeCount
  | size
  | contains (node : String)
  | summary
  deriving DecidableEq, Repr

/-- What is answered, as it is at that time. -/
inductive Answer where
  | truth (holds : Bool)
  | count (n : Nat)
  | text (s : String)
  /-- Edges are values that cannot be changed. -/
  | edges (edges : List Edge)
  | object (object : Object)
  /-- A table with the objects in its rows. -/
  | table (rows : List (String × Object))

/-! ## Tables -/

/-- What a graph keeps: its nodes, and for the sources of edges and of missing imports a row each,
in the order in which they came. -/
structure Tables where
  nodes : NameSet
  edges : List (String × NameSet)
  missing : List (String × NameSet)

namespace Tables

/-- The row of a name, which is empty if there is none. -/
def row (rows : List (String × NameSet)) (name : String) : NameSet :=
  (rows.lookup name).getD OrderedSet.empty

/-- Put a name into the row of another, which must be there. -/
def putInto? (key name : String) : List (String × NameSet) → Option (List (String × NameSet))
  | [] => none
  | (k, names) :: rest =>
    if k = key then some ((k, names.insert name) :: rest)
    else (putInto? key name rest).map ((k, names) :: ·)

/-- Every node with the nodes that import it.  There must be a row for each target. -/
def inboundIndex? (tables : Tables) : Option (List (String × List String)) := do
  let start := tables.nodes.toList.map fun node => (node, (OrderedSet.empty : NameSet))
  let index ← tables.edges.foldlM
    (fun index (source, targets) =>
      targets.toList.foldlM (fun index target => putInto? target source index) index) start
  return index.map fun (node, sources) => (node, sources.toList)

/-- The nodes that no row of edges holds. -/
def roots (tables : Tables) : NameSet :=
  let targets := tables.edges.foldl (fun all row => all.union row.2) OrderedSet.empty
  tables.nodes.filter fun node => !targets.contains node

/-- The edges, row by row in the order of the sources. -/
def edgeList (tables : Tables) : List Edge :=
  (OrderedSet.ofList (tables.edges.map (·.1))).toList.flatMap fun source =>
    (row tables.edges source).toList.map (⟨source, ·⟩)

/-- The sources of the rows that are not empty, and the targets in them. -/
def connected (tables : Tables) : NameSet :=
  tables.edges.foldl
    (fun all row => if row.2.isEmpty then all else (all.insert row.1).union row.2) OrderedSet.empty

/-- The number of names in all rows. -/
def count (rows : List (String × NameSet)) : Nat :=
  (rows.map (·.2.size)).foldl (· + ·) 0

/-- The sizes of the graph in one line. -/
def summary (tables : Tables) : String :=
  "DependencyGraph(nodes=" ++ toString tables.nodes.size ++ ", edges="
    ++ toString (count tables.edges) ++ ", unresolved=" ++ toString (count tables.missing) ++ ")"

/-- What the graph answers. -/
def answer? (tables : Tables) : Query → Option Answer
  | .targetsOf source => some (.object (.set (row tables.edges source)))
  | .importsOf source => some (.object (.list (row tables.edges source).toList))
  | .missingOf source => some (.object (.set (row tables.missing source)))
  | .missing => some (.table (tables.missing.map fun row => (row.1, .set row.2)))
  | .inboundIndex =>
    tables.inboundIndex?.map fun index => .table (index.map fun row => (row.1, .list row.2))
  | .roots => some (.object (.set tables.roots))
  | .edges => some (.edges tables.edgeList)
  | .connected => some (.object (.set tables.connected))
  | .edgeCount => some (.count (count tables.edges))
  | .size => some (.count tables.nodes.size)
  | .contains node => some (.truth (tables.nodes.contains node))
  | .summary => some (.text tables.summary)

end Tables

/-! ## Memory -/

/-- What a question is answered with: a value, or an object that whoever asked may change. -/
inductive Reply where
  | value (answer : Answer)
  | object (address : Address)

/-- What can be done with a graph and with what it has given away. -/
inductive Call where
  | addNode (node : String)
  | addEdge (source target : String)
  | addMissing (source specifier : String)
  | ask (query : Query)
  /-- Make an object that has nothing to do with the graph. -/
  | make (object : Object)
  /-- Change an object that was given away into any other. -/
  | change (address : Address) (object : Object)

/-- A graph in memory. -/
structure Memory where
  /-- The objects, each at the address that is its number. -/
  objects : List Object
  /-- The set of nodes. -/
  nodes : Address
  /-- The table of the targets of each source. -/
  edges : Address
  /-- The table of the specifiers that each source misses. -/
  missing : Address
  /-- The objects that were given away. -/
  given : List Address

namespace Memory

/-- A graph without nodes. -/
def empty : Memory :=
  ⟨[.set OrderedSet.empty, .table [], .table []], 0, 1, 2, []⟩

variable (memory : Memory)

/-! ### Reading -/

/-- The set at an address. -/
def set? (address : Address) : Option NameSet :=
  match memory.objects[address]? with
  | some (.set names) => some names
  | _ => none

/-- The table at an address. -/
def table? (address : Address) : Option (List (String × Address)) :=
  match memory.objects[address]? with
  | some (.table rows) => some rows
  | _ => none

/-- The rows of a table of sets. -/
def sets? (address : Address) : Option (List (String × NameSet)) := do
  (← memory.table? address).mapM fun row => do return (row.1, ← memory.set? row.2)

/-- What the graph keeps. -/
def tables? : Option Tables := do
  return ⟨← memory.set? memory.nodes, ← memory.sets? memory.edges, ← memory.sets? memory.missing⟩

/-- What the object at an address shows, and the objects in its rows if it is a table. -/
def read? (address : Address) : Option Answer := do
  match ← memory.objects[address]? with
  | .table rows => return .table (← rows.mapM fun row => do return (row.1, ← memory.objects[row.2]?))
  | object => return .object object

/-! ### Writing -/

/-- Put an object in place of another. -/
def write (address : Address) (object : Object) : Memory :=
  { memory with objects := memory.objects.set address object }

/-- Put an object at a new address. -/
def allocate (object : Object) : Address × Memory :=
  (memory.objects.length, { memory with objects := memory.objects ++ [object] })

/-- Put a name into the set at an address. -/
def insertInto? (address : Address) (name : String) : Option Memory := do
  let names ← memory.set? address
  return memory.write address (.set (names.insert name))

/-- Put a name into the set of another in a table, which gets a new row if there is none. -/
def insertAt? (table : Address) (key name : String) : Option Memory := do
  let rows ← memory.table? table
  match rows.lookup key with
  | some address => memory.insertInto? address name
  | none =>
    let (address, memory) := memory.allocate (.set OrderedSet.empty)
    (memory.write table (.table (rows ++ [(key, address)]))).insertInto? address name

/-! ### Giving away -/

/-- Make a new object and give it away. -/
def give (object : Object) : Address × Memory :=
  let (address, memory) := memory.allocate object
  (address, { memory with given := address :: memory.given })

/-- Make the objects of a table's rows and give them away. -/
def giveRows : Memory → List (String × Object) → List (String × Address) × Memory
  | memory, [] => ([], memory)
  | memory, (key, object) :: rest =>
    let (address, memory) := memory.give object
    let (rows, memory) := memory.giveRows rest
    ((key, address) :: rows, memory)

/-- Make a table with new objects and give all of it away. -/
def giveTable (rows : List (String × Object)) : Address × Memory :=
  let (rows, memory) := memory.giveRows rows
  memory.give (.table rows)

/-- Give an answer. -/
def reply : Answer → Reply × Memory
  | .object object =>
    let (address, memory) := memory.give object
    (.object address, memory)
  | .table rows =>
    let (address, memory) := memory.giveTable rows
    (.object address, memory)
  | answer => (.value answer, memory)

/-- What a reply shows. -/
def shows? : Reply → Option Answer
  | .value answer => some answer
  | .object address => memory.read? address

/-! ### Calls -/

/-- Add a node. -/
def addNode? (node : String) : Option Memory :=
  memory.insertInto? memory.nodes node

/-- Add an edge and its ends, unless it goes from a node to itself. -/
def addEdge? (source target : String) : Option (Bool × Memory) :=
  if source = target then some (false, memory)
  else do
    let memory ← memory.insertInto? memory.nodes source
    let memory ← memory.insertInto? memory.nodes target
    return (true, ← memory.insertAt? memory.edges source target)

/-- Add a missing import and its source. -/
def addMissing? (source specifier : String) : Option Memory := do
  let memory ← memory.insertInto? memory.nodes source
  memory.insertAt? memory.missing source specifier

/-- Answer a question. -/
def ask? (query : Query) : Option (Reply × Memory) := do
  return memory.reply (← (← memory.tables?).answer? query)

/-- Whether an object leads only to what was given away. -/
def IsForeign (object : Object) : Prop :=
  ∀ reference ∈ object.references, reference ∈ memory.given

instance : DecidablePred memory.IsForeign :=
  fun _ => inferInstanceAs (Decidable (∀ reference ∈ _, reference ∈ _))

/-- Make an object that has nothing to do with the graph. -/
def make (object : Object) : Memory :=
  if memory.IsForeign object then (memory.give object).2 else memory

/-- Change an object that was given away. -/
def change (address : Address) (object : Object) : Memory :=
  if address ∈ memory.given ∧ memory.IsForeign object then memory.write address object else memory

/-- The graph after a call. -/
def step? : Call → Option Memory
  | .addNode node => memory.addNode? node
  | .addEdge source target => (memory.addEdge? source target).map (·.2)
  | .addMissing source specifier => memory.addMissing? source specifier
  | .ask query => (memory.ask? query).map (·.2)
  | .make object => some (memory.make object)
  | .change address object => some (memory.change address object)

/-- A new graph after calls. -/
def run? (calls : List Call) : Option Memory :=
  calls.foldlM (·.step? ·) empty

end Memory

end SourceAtlas.ImportGraph
