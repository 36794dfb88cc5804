/-
# SourceAtlas.Reading.Schedule — one way to read all files.

Reads end in one of three ways: with a text, with a failure, which counts as a text without
imports, or not at all.  The schedule here runs the pool in rounds.  In a round as many waiting
reads start as there are readers free, every read that can end does, and a poll takes them in; when
nothing ended the time passes until the poll may give up the reads that run.  The signal is looked
at before each round, and by each reader before it reads.

A program that waits for a read that never ends, with no limit on its time and no signal, waits for
ever.  The schedule stops there and returns what was found before: that is the state in which such
a program stays, and not a result that it returns.
-/
import SourceAtlas.FileSystem.Entry
import SourceAtlas.Reading.Pool
import SourceAtlas.Signal
import SourceAtlas.Text.Utf8
import SourceAtlas.TrackedFile

namespace SourceAtlas

namespace Reading

/-- How a read ends. -/
inductive Outcome where
  | text (content : Content)
  | failed
  | never
  deriving DecidableEq, Repr

/-- How reading an entry ends; only files have a text. -/
def Outcome.ofEntry : Option Entry → Outcome
  | some (.file _ faults content) =>
    if faults.hang then .never else if faults.read then .failed else .text content
  | _ => .failed

/-- The specifiers of a file's bytes.  Zero bytes import nothing. -/
def contentSpecifiers (language : Language) : Content → NameSet
  | .bytes content => specifiersOf language (Text.Utf8.lenient content)
  | .zeros _ => OrderedSet.empty

/-- What a read that ends finds. -/
def Outcome.specifiers? (language : Language) : Outcome → Option NameSet
  | text content => some (contentSpecifiers language content)
  | failed => some OrderedSet.empty
  | never => none

/-- A file to read. -/
structure Job where
  path : String
  language : Language
  outcome : Outcome

/-- Whether a time limit can run out: it is positive and finite. -/
def limits (timeout : Float) : Bool :=
  0.0 < timeout && (Number.dyadic? timeout).isSome

/-- The ticks that a read may take, and one more. -/
def patience : Nat := 1

/-- How a reader is done with a file that it takes up, if it ever is.  It looks at the signal before
it reads, and the file whose reading sets the signal is not read to its end. -/
def Job.takeUp (job : Job) (signal : Signal) : Option (Option NameSet) × Signal :=
  match signal.look with
  | (true, signal) => (some none, signal)
  | (false, signal) =>
    (if signal.onRead = some job.path then none
      else (job.outcome.specifiers? job.language).map some,
      signal.read job.path)

/-- The events by which readers take up files one after another and, if they can, are done with
them, and the signal afterwards. -/
def readEvents : List Job → Signal → List Event × Signal
  | [], signal => ([], signal)
  | job :: rest, signal =>
    let (found, signal) := job.takeUp signal
    let (events, signal) := readEvents rest signal
    (.start job.path :: ((found.map (.finish job.path)).toList ++ events), signal)

/-- The jobs that the free readers take up next. -/
def nextJobs (jobs : List Job) (workers : Nat) (pool : Pool) : List Job :=
  let paths := pool.waiting.take (workers - pool.running.length)
  jobs.filter fun job => paths.contains job.path

/-- The events by which the running reads are given up and the waiting ones are moved. -/
def giveUpEvents (pool : Pool) : List Event :=
  .pass (patience + 1) :: pool.running.map (.abandon · patience)
    ++ .refresh :: pool.waiting.map .requeue

/-- The pool after a poll, if the signal and the limit let anything more happen. -/
def poll? (limited : Bool) (pool : Pool) (signal : Signal) : Option Pool :=
  -- time passes only when nothing has ended
  if !pool.ended.isEmpty then some (pool.steps (pool.ended.map .collect))
  else if signal.isSet || !limited then none
  else some (pool.steps (giveUpEvents pool))

/-- Run rounds until every read is settled, the signal is set, or nothing can happen any more.  The
last is so only if a read without a limit never ends. -/
def rounds (jobs : List Job) (workers : Nat) (limited : Bool) :
    Nat → Pool → Signal → Pool × Signal
  | 0, pool, signal => (pool, signal)
  | fuel + 1, pool, signal =>
    if pool.pending.isEmpty then (pool, signal)
    else
      match signal.look with
      | (true, signal) => (pool, signal)
      | (false, signal) =>
        let (events, signal) := readEvents (nextJobs jobs workers pool) signal
        let read := pool.steps events
        match poll? limited read signal with
        | some next => rounds jobs workers limited fuel next signal
        | none => (read, signal)

/-- Read all files.  If one of them is never read and no limit runs out, this is what has been found
while the program waits for it. -/
def readAll (jobs : List Job) (workers : Nat) (timeout : Float) (signal : Signal) :
    SpecifierMap × Signal :=
  let (pool, signal) :=
    rounds jobs workers (limits timeout) (jobs.length + 1) (Pool.ofPaths (jobs.map (·.path))) signal
  (pool.results, signal)

/-- The files among those tracked that have an import grammar, as they are in a tree. -/
def jobsOf (root : Entry) (files : List TrackedFile) : List Job :=
  (files.filter (·.language ≠ .none)).map fun file =>
    ⟨file.path, file.language, .ofEntry (root.at? ((Text.splitAt '/' file.path)))⟩

end Reading

end SourceAtlas
