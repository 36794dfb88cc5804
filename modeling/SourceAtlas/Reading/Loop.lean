/-
# SourceAtlas.Reading.Loop — the loop that has files read, beside its readers.

A loop gives every file to a set of readers and gets a ticket for it.  Then it goes round: it waits
until some tickets have ended, takes in what they found, gives up the reads that have run for longer
than a limit, takes back the tickets that no reader has taken up yet, and gives their files to a
fresh set of readers, because a read that is given up keeps its reader.  Meanwhile readers take
tickets up, begin, look whether the scan is called off, and end or never end.

Each `Event` is one thing that the loop, a reader or the clock does, and any of them may come
between any two things that the loop does, such as between its wait, its judging of a ticket and its
taking a ticket back.  An event that does not fit the state changes nothing, so every list of events
is a run.  `Reading.Pool` is what is left of this where a file has one read and not several tickets.
-/
import SourceAtlas.Reading.Schedule

namespace SourceAtlas.Reading

/-! ## Tickets -/

/-- How far a ticket has come. -/
inductive Ticket.Stage where
  /-- No reader has taken it up. -/
  | queued
  /-- A reader has taken it up. -/
  | taken
  /-- The reader has noted the time. -/
  | begun
  /-- The reader has found that the scan goes on, and reads. -/
  | reading
  /-- The read has ended; one that found the scan called off has no result. -/
  | ended (found : Option NameSet)
  /-- The loop has taken it back before any reader could take it up. -/
  | withdrawn

namespace Ticket.Stage

/-- It has not been taken back. -/
def live : Ticket.Stage → Bool
  | withdrawn => false
  | _ => true

/-- A reader is at it. -/
def busy : Ticket.Stage → Bool
  | taken => true
  | begun => true
  | reading => true
  | _ => false

/-- Its read has begun, and may have ended. -/
def started : Ticket.Stage → Bool
  | begun => true
  | reading => true
  | ended _ => true
  | _ => false

/-- Its read has ended. -/
def done : Ticket.Stage → Bool
  | ended _ => true
  | _ => false

end Ticket.Stage

/-- The loop's ticket for a file. -/
structure Ticket where
  job : Job
  /-- The set of readers that the file was given to. -/
  readers : Nat
  stage : Ticket.Stage

/-! ## States -/

/-- What the loop is about to do. -/
inductive Loop.Phase where
  /-- It gives files to the latest readers; some tickets it already has. -/
  | submitting (jobs : List Job) (fresh : List Nat)
  /-- It is at the head of a round. -/
  | head
  /-- It waits for tickets to end. -/
  | waiting
  /-- It takes in tickets that it has seen ended. -/
  | collecting (ended : List Nat)
  /-- It judges tickets by a time that it has read from the clock. -/
  | judging (time : Nat) (left stalled : List Nat)
  /-- It gives up the tickets that it has judged stalled. -/
  | abandoning (stalled : List Nat)
  /-- It takes back tickets that are still queued; some files it already has back. -/
  | withdrawing (left : List Nat) (moved : List Job)
  | stopped

/-- The loop and its readers.  Tickets are known by their numbers, in the order of submission. -/
structure Loop where
  tickets : List Ticket
  /-- When the reads of files began, by path. -/
  begun : List (String × Nat)
  /-- The time, in ticks of any length. -/
  now : Nat
  /-- Whether the scan is called off. -/
  calledOff : Bool
  /-- The number of the latest set of readers. -/
  readers : Nat
  /-- The tickets that are not settled. -/
  pending : List Nat
  results : SpecifierMap
  /-- The files whose reads were judged stalled. -/
  abandoned : List String
  /-- The files whose reads found the scan called off. -/
  skipped : List String
  phase : Loop.Phase

namespace Loop

/-- The loop that has all files to submit. -/
def ofJobs (jobs : List Job) : Loop where
  tickets := []
  begun := []
  now := 0
  calledOff := false
  readers := 0
  pending := []
  results := []
  abandoned := []
  skipped := []
  phase := .submitting jobs []

/-- What happens. -/
inductive Event where
  /-- A reader takes up a ticket. -/
  | take (number : Nat)
  /-- The reader notes the time. -/
  | start (number : Nat)
  /-- The reader looks whether the scan is called off. -/
  | look (number : Nat)
  /-- The read ends, if it ever does. -/
  | finish (number : Nat)
  /-- Time goes by. -/
  | pass (ticks : Nat)
  /-- The scan is called off. -/
  | callOff
  /-- The loop does the next thing; if it waits, the wait ends with these of the ended tickets. -/
  | proceed (seen : List Nat)

/-! ## What readers do -/

/-- The loop with another stage for a ticket. -/
def setStage (loop : Loop) (number : Nat) (stage : Ticket.Stage) : Loop :=
  { loop with tickets := loop.tickets.modify number ({ · with stage }) }

/-- The number of readers of a set that are at a ticket. -/
def busy (loop : Loop) (readers : Nat) : Nat :=
  loop.tickets.countP fun ticket => ticket.readers == readers && ticket.stage.busy

/-- A reader takes up a ticket, if its set has a reader free. -/
def take (workers : Nat) (loop : Loop) (number : Nat) (ticket : Ticket) : Loop :=
  match ticket.stage with
  | .queued => if loop.busy ticket.readers < workers then loop.setStage number .taken else loop
  | _ => loop

/-- A reader begins with a ticket. -/
def start (loop : Loop) (number : Nat) (ticket : Ticket) : Loop :=
  match ticket.stage with
  | .taken =>
    { loop.setStage number .begun with begun := (ticket.job.path, loop.now) :: loop.begun }
  | _ => loop

/-- A reader that has begun leaves the file alone if the scan is called off. -/
def look (loop : Loop) (number : Nat) (ticket : Ticket) : Loop :=
  match ticket.stage with
  | .begun => loop.setStage number (if loop.calledOff then .ended none else .reading)
  | _ => loop

/-- A reader that reads is done, if the read of the file ever ends. -/
def finish (loop : Loop) (number : Nat) (ticket : Ticket) : Loop :=
  match ticket.stage, ticket.job.outcome.specifiers? ticket.job.language with
  | .reading, some found => loop.setStage number (.ended (some found))
  | _, _ => loop

/-! ## What the loop does -/

/-- Whether the read of a ticket has ended. -/
def hasEnded (loop : Loop) (number : Nat) : Bool :=
  (loop.tickets[number]?.map (·.stage.done)).getD false

/-- Whether a ticket is stalled at a time: its read has not ended, has begun, and by that time has
run for longer than the limit. -/
def stalled (limit : Nat) (loop : Loop) (time : Nat) (ticket : Ticket) : Bool :=
  !ticket.stage.done &&
    ((loop.begun.lookup ticket.job.path).map fun since => decide (limit < time - since)).getD false

/-- A ticket is no longer pending. -/
def settle (loop : Loop) (number : Nat) : Loop :=
  { loop with pending := loop.pending.erase number }

/-- The loop takes in a ticket that has ended. -/
def collect (loop : Loop) (number : Nat) (ticket : Ticket) : Loop :=
  match ticket.stage with
  | .ended (some found) =>
    { loop.settle number with results := (ticket.job.path, found) :: loop.results }
  | .ended none => { loop.settle number with skipped := ticket.job.path :: loop.skipped }
  | _ => loop

/-- The loop does the next thing. -/
def proceed (limit : Option Nat) (loop : Loop) (seen : List Nat) : Loop :=
  match loop.phase with
  | .submitting (job :: rest) fresh =>
    { loop with
      tickets := loop.tickets ++ [⟨job, loop.readers, .queued⟩]
      phase := .submitting rest (fresh ++ [loop.tickets.length]) }
  | .submitting [] fresh => { loop with pending := loop.pending ++ fresh, phase := .head }
  | .head => { loop with phase := if loop.pending.isEmpty || loop.calledOff then .stopped else .waiting }
  | .waiting =>
    { loop with
      phase := .collecting (seen.filter fun n => loop.pending.contains n && loop.hasEnded n) }
  | .collecting (number :: rest) =>
    let next := { loop with phase := .collecting rest }
    match loop.tickets[number]? with
    | some ticket => if loop.pending.contains number then next.collect number ticket else next
    | none => loop
  | .collecting [] =>
    { loop with phase := if limit.isSome then .judging loop.now loop.pending [] else .head }
  | .judging time (number :: rest) stalled =>
    match limit, loop.tickets[number]? with
    | some limit, some ticket =>
      if loop.stalled limit time ticket then
        { loop with
          abandoned := ticket.job.path :: loop.abandoned
          phase := .judging time rest (stalled ++ [number]) }
      else { loop with phase := .judging time rest stalled }
    | _, _ => loop
  | .judging _ [] stalled =>
    { loop with phase := if stalled.isEmpty then .head else .abandoning stalled }
  | .abandoning (number :: rest) =>
    match loop.tickets[number]? with
    | some ticket =>
      { loop.settle number with
        results := (ticket.job.path, OrderedSet.empty) :: loop.results
        phase := .abandoning rest }
    | none => loop
  | .abandoning [] => { loop with phase := .withdrawing loop.pending [] }
  | .withdrawing (number :: rest) moved =>
    match loop.tickets[number]? with
    | some ⟨job, _, .queued⟩ =>
      { (loop.setStage number .withdrawn).settle number with
        phase := .withdrawing rest (moved ++ [job]) }
    | _ => { loop with phase := .withdrawing rest moved }
  | .withdrawing [] moved =>
    if moved.isEmpty then { loop with phase := .head }
    else { loop with readers := loop.readers + 1, phase := .submitting moved [] }
  | .stopped => loop

/-! ## Runs -/

/-- What an event does, where each set has so many readers and reads may take so long. -/
def step (workers : Nat) (limit : Option Nat) (loop : Loop) : Event → Loop
  | .take number => (loop.tickets[number]?.map (take workers loop number)).getD loop
  | .start number => (loop.tickets[number]?.map (start loop number)).getD loop
  | .look number => (loop.tickets[number]?.map (look loop number)).getD loop
  | .finish number => (loop.tickets[number]?.map (finish loop number)).getD loop
  | .pass ticks => { loop with now := loop.now + ticks }
  | .callOff => { loop with calledOff := true }
  | .proceed seen => loop.proceed limit seen

/-- What a sequence of events does. -/
def run (workers : Nat) (limit : Option Nat) (loop : Loop) (events : List Event) : Loop :=
  events.foldl (step workers limit) loop

end Loop

end SourceAtlas.Reading
