/-
# SourceAtlas.Reading.Pool — files being read, one step at a time.

Reads wait, run and end; a poll collects what has ended, abandons what has run for too long, and
moves what still waits to a fresh set of readers, because an abandoned read keeps its own.  The
state of all this is a `Pool`, and everything that can happen to it is an `Event`.  An event that
does not fit the state changes nothing.
-/
import SourceAtlas.Extract

namespace SourceAtlas

/-- The specifiers of each file, by path. -/
abbrev SpecifierMap := List (String × NameSet)

/-- The specifiers of a path. -/
def SpecifierMap.of (specifiers : SpecifierMap) (path : String) : NameSet :=
  (List.lookup path specifiers).getD OrderedSet.empty

namespace Reading

/-- How far a read has come. -/
inductive Stage where
  | waiting
  /-- It runs since a moment. -/
  | running (since : Nat)
  /-- It has ended; a read that found the scan called off has no result. -/
  | ended (specifiers : Option NameSet)

/-- A read that is not settled yet. -/
structure Pending where
  path : String
  /-- The set of readers that it was given to. -/
  readers : Nat
  stage : Stage

/-- All reads of a scan. -/
structure Pool where
  pending : List Pending
  /-- What the settled reads have found. -/
  results : SpecifierMap
  /-- The time, in ticks. -/
  now : Nat
  /-- The number of the latest set of readers. -/
  readers : Nat

/-- What can happen. -/
inductive Event where
  /-- A reader takes up a file. -/
  | start (path : String)
  /-- A reader is done with a file. -/
  | finish (path : String) (specifiers : Option NameSet)
  /-- Time goes by. -/
  | pass (ticks : Nat)
  /-- A poll takes in an ended read. -/
  | collect (path : String)
  /-- A poll gives up a read that has run for longer than a number of ticks. -/
  | abandon (path : String) (patience : Nat)
  /-- A poll opens a fresh set of readers. -/
  | refresh
  /-- A poll moves a waiting read to the latest set of readers. -/
  | requeue (path : String)

namespace Pool

/-- The pool in which every file waits. -/
def ofPaths (paths : List String) : Pool :=
  ⟨paths.map fun path => ⟨path, 0, .waiting⟩, [], 0, 0⟩

/-- The stage of the read of a file. -/
def stage? (pool : Pool) (path : String) : Option Stage :=
  (pool.pending.find? (·.path == path)).map (·.stage)

/-- The pool with another stage for the read of a file. -/
def setStage (pool : Pool) (path : String) (stage : Stage) : Pool :=
  { pool with
    pending := pool.pending.map fun p => if p.path = path then { p with stage } else p }

/-- The pool without the read of a file. -/
def settle (pool : Pool) (path : String) : Pool :=
  { pool with pending := pool.pending.filter (·.path != path) }

/-- The pool with a result. -/
def record (pool : Pool) (path : String) (specifiers : NameSet) : Pool :=
  { pool with results := (path, specifiers) :: pool.results }

/-- What an event does. -/
def step (pool : Pool) : Event → Pool
  | .start path =>
    match pool.stage? path with
    | some .waiting => pool.setStage path (.running pool.now)
    | _ => pool
  | .finish path specifiers =>
    match pool.stage? path with
    | some (.running _) => pool.setStage path (.ended specifiers)
    | _ => pool
  | .pass ticks => { pool with now := pool.now + ticks }
  | .collect path =>
    match pool.stage? path with
    | some (.ended (some specifiers)) => (pool.settle path).record path specifiers
    | some (.ended none) => pool.settle path
    | _ => pool
  | .abandon path patience =>
    match pool.stage? path with
    | some (.running since) =>
      if patience < pool.now - since then (pool.settle path).record path OrderedSet.empty else pool
    | _ => pool
  | .refresh => { pool with readers := pool.readers + 1 }
  | .requeue path =>
    match pool.stage? path with
    | some .waiting =>
      { pool with
        pending := pool.pending.map fun p =>
          if p.path = path then { p with readers := pool.readers } else p }
    | _ => pool

/-- What a sequence of events does. -/
def steps (pool : Pool) (events : List Event) : Pool :=
  events.foldl step pool

/-- The files whose reads wait. -/
def waiting (pool : Pool) : List String :=
  pool.pending.filterMap fun p =>
    match p.stage with
    | .waiting => some p.path
    | _ => none

/-- The files whose reads run. -/
def running (pool : Pool) : List String :=
  pool.pending.filterMap fun p =>
    match p.stage with
    | .running _ => some p.path
    | _ => none

/-- The files whose reads have ended. -/
def ended (pool : Pool) : List String :=
  pool.pending.filterMap fun p =>
    match p.stage with
    | .ended _ => some p.path
    | _ => none

end Pool

end Reading

end SourceAtlas
