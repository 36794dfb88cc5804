/-
# SourceAtlas.Proofs.Reading.Loop — what one step of the reading loop can do.

A step of the loop turns to another phase, submits a file, takes a ticket in, judges it, gives it up
or takes it back; a step of a reader moves a ticket that is not done one stage on; and time goes by
or the scan is called off (`Moves`).  Everything else about runs is proved from these eleven ways.
-/
import SourceAtlas.Reading.Loop

namespace SourceAtlas.Reading.Loop

/-! ## Phases -/

/-- The files that have no ticket at the moment. -/
def Phase.moved : Phase → List Job
  | submitting jobs _ => jobs
  | withdrawing _ moved => moved
  | _ => []

/-- The tickets that are not pending yet. -/
def Phase.fresh : Phase → List Nat
  | submitting _ fresh => fresh
  | _ => []

/-- The tickets that are judged stalled and still pending. -/
def Phase.stalled : Phase → List Nat
  | judging _ _ stalled => stalled
  | abandoning stalled => stalled
  | _ => []

/-- The tickets that are still to be looked at. -/
def Phase.left : Phase → List Nat
  | judging _ left _ => left
  | withdrawing left _ => left
  | _ => []

/-- The time by which tickets are judged. -/
def Phase.time? : Phase → Option Nat
  | judging time _ _ => some time
  | _ => none

/-! ## Steps -/

variable {workers : Nat} {limit : Option Nat} {loop next : Loop}

/-- **`Moves limit loop next`** — a step takes the loop to the next state. -/
inductive Moves (limit : Option Nat) (loop : Loop) : Loop → Prop
  /-- The loop turns to another phase, perhaps with fresh readers, or nothing happens. -/
  | turn {phase : Phase} {readers : Nat} (newest : loop.readers ≤ readers)
      (moved : phase.moved = loop.phase.moved) (fresh : phase.fresh = loop.phase.fresh)
      (stalled : phase.stalled = loop.phase.stalled)
      (left : phase.left.Sublist loop.phase.left ∨
        loop.phase.stalled = [] ∧ phase.left = loop.pending)
      (time : ∀ time, phase.time? = some time → loop.phase.time? = some time ∨ time = loop.now)
      (stopped : phase = .stopped → loop.phase = .stopped ∨ loop.pending = [] ∨ loop.calledOff = true) :
      Moves limit loop { loop with phase, readers }
  | pass (ticks : Nat) : Moves limit loop { loop with now := loop.now + ticks }
  | callOff : Moves limit loop { loop with calledOff := true }
  /-- A reader moves a ticket on, and notes the time when it begins. -/
  | work {number : Nat} {ticket : Ticket} {stage : Ticket.Stage} {begun : List (String × Nat)}
      (has : loop.tickets[number]? = some ticket) (was : ticket.stage.live = true)
      (undone : ticket.stage.done = false) (live : stage.live = true)
      (started : begun = loop.begun ∧ stage.started = ticket.stage.started ∨
        begun = (ticket.job.path, loop.now) :: loop.begun ∧ stage.started = true)
      (found : ∀ found, stage = .ended found → found = none ∧ loop.calledOff = true ∨
        found.isSome = true ∧ ticket.job.outcome.specifiers? ticket.job.language = found) :
      Moves limit loop { loop.setStage number stage with begun }
  | submit {job : Job} {rest : List Job} {fresh : List Nat}
      (phase : loop.phase = .submitting (job :: rest) fresh) :
      Moves limit loop
        { loop with
          tickets := loop.tickets ++ [⟨job, loop.readers, .queued⟩]
          phase := .submitting rest (fresh ++ [loop.tickets.length]) }
  | submitted {fresh : List Nat} (phase : loop.phase = .submitting [] fresh) :
      Moves limit loop { loop with pending := loop.pending ++ fresh, phase := .head }
  | collect {number : Nat} {rest : List Nat} {ticket : Ticket} {found : NameSet}
      (phase : loop.phase = .collecting (number :: rest))
      (has : loop.tickets[number]? = some ticket) (pending : number ∈ loop.pending)
      (ended : ticket.stage = .ended (some found)) :
      Moves limit loop
        { loop.settle number with
          results := (ticket.job.path, found) :: loop.results
          phase := .collecting rest }
  /-- A read that found the scan called off leaves no result. -/
  | skip {number : Nat} {rest : List Nat} {ticket : Ticket}
      (phase : loop.phase = .collecting (number :: rest))
      (has : loop.tickets[number]? = some ticket) (pending : number ∈ loop.pending)
      (ended : ticket.stage = .ended none) :
      Moves limit loop
        { loop.settle number with
          skipped := ticket.job.path :: loop.skipped
          phase := .collecting rest }
  | judge {time number : Nat} {rest stalled : List Nat} {ticket : Ticket} {bound : Nat}
      (phase : loop.phase = .judging time (number :: rest) stalled)
      (limited : limit = some bound) (has : loop.tickets[number]? = some ticket)
      (late : loop.stalled bound time ticket = true) :
      Moves limit loop
        { loop with
          abandoned := ticket.job.path :: loop.abandoned
          phase := .judging time rest (stalled ++ [number]) }
  | abandon {number : Nat} {rest : List Nat} {ticket : Ticket}
      (phase : loop.phase = .abandoning (number :: rest))
      (has : loop.tickets[number]? = some ticket) :
      Moves limit loop
        { loop.settle number with
          results := (ticket.job.path, OrderedSet.empty) :: loop.results
          phase := .abandoning rest }
  | withdraw {number : Nat} {rest : List Nat} {moved : List Job} {job : Job} {readers : Nat}
      (phase : loop.phase = .withdrawing (number :: rest) moved)
      (has : loop.tickets[number]? = some ⟨job, readers, .queued⟩) :
      Moves limit loop
        { (loop.setStage number .withdrawn).settle number with
          phase := .withdrawing rest (moved ++ [job]) }

/-- Nothing happens. -/
theorem Moves.idle : Moves limit loop loop :=
  .turn (Nat.le_refl _) rfl rfl rfl (Or.inl (List.Sublist.refl _)) (fun _ => Or.inl) Or.inl

/-- The loop turns from one phase to another. -/
theorem Moves.turn_from {was phase : Phase} {readers : Nat} (hwas : loop.phase = was)
    (newest : loop.readers ≤ readers) (moved : phase.moved = was.moved)
    (fresh : phase.fresh = was.fresh)
    (stalled : phase.stalled = was.stalled)
    (left : phase.left.Sublist was.left ∨ was.stalled = [] ∧ phase.left = loop.pending)
    (time : ∀ time, phase.time? = some time → was.time? = some time ∨ time = loop.now)
    (stopped : phase = .stopped → loop.pending = [] ∨ loop.calledOff = true) :
    Moves limit loop { loop with phase, readers } := by
  subst hwas
  exact .turn newest moved fresh stalled left time fun h => Or.inr (stopped h)

/-- The loop turns to a phase with no tickets left to look at. -/
theorem Moves.turn_bare {was phase : Phase} {readers : Nat} (hwas : loop.phase = was)
    (newest : loop.readers ≤ readers) (moved : phase.moved = was.moved)
    (fresh : phase.fresh = was.fresh) (stalled : phase.stalled = was.stalled)
    (left : phase.left = []) (time : phase.time? = none) (stopped : phase ≠ .stopped) :
    Moves limit loop { loop with phase, readers } := by
  refine Moves.turn_from hwas newest moved fresh stalled (Or.inl ?_) ?_ fun h => absurd h stopped
  · rw [left]
    exact List.nil_sublist _
  · intro time' htime
    rw [time] at htime
    cases htime

/-- What the loop does next is one of these. -/
theorem moves_proceed (limit : Option Nat) (loop : Loop) (seen : List Nat) :
    Moves limit loop (loop.proceed limit seen) := by
  unfold proceed
  cases hphase : loop.phase with
  | submitting jobs fresh =>
      cases jobs with
      | nil => exact Moves.submitted hphase
      | cons job rest => exact Moves.submit hphase
  | head =>
      simp only
      split
      · rename_i hends
        refine Moves.turn_from hphase (Nat.le_refl _) rfl rfl rfl (Or.inl (List.nil_sublist _))
          nofun fun _ => ?_
        rcases Bool.or_eq_true_iff.mp hends with hempty | hoff
        · exact Or.inl (List.isEmpty_iff.mp hempty)
        · exact Or.inr hoff
      · exact Moves.turn_bare hphase (Nat.le_refl _) rfl rfl rfl rfl rfl nofun
  | waiting =>
      exact Moves.turn_bare hphase (Nat.le_refl _) rfl rfl rfl rfl rfl nofun
  | collecting ended =>
      cases ended with
      | nil =>
          simp only
          split
          · exact Moves.turn_from hphase (Nat.le_refl _) rfl rfl rfl (Or.inr ⟨rfl, rfl⟩)
              (fun _ htime => Or.inr (Option.some.inj htime).symm) nofun
          · exact Moves.turn_bare hphase (Nat.le_refl _) rfl rfl rfl rfl rfl nofun
      | cons number rest =>
          have hidle : Moves limit loop { loop with phase := .collecting rest } :=
            Moves.turn_bare hphase (Nat.le_refl _) rfl rfl rfl rfl rfl nofun
          simp only
          cases hticket : loop.tickets[number]? with
          | none => exact Moves.idle
          | some ticket =>
              simp only
              split
              · have hpending : number ∈ loop.pending := List.contains_iff_mem.mp ‹_›
                unfold collect
                split
                · exact Moves.collect hphase hticket hpending ‹_›
                · exact Moves.skip hphase hticket hpending ‹_›
                · exact hidle
              · exact hidle
  | judging time left stalled =>
      cases left with
      | nil =>
          simp only
          split
          · rename_i hnone
            exact Moves.turn_bare hphase (Nat.le_refl _) rfl rfl (List.isEmpty_iff.mp hnone).symm rfl
              rfl nofun
          · exact Moves.turn_bare hphase (Nat.le_refl _) rfl rfl rfl rfl rfl nofun
      | cons number rest =>
          simp only
          split
          · rename_i bound ticket hticket
            split
            · exact Moves.judge hphase rfl hticket ‹_›
            · exact Moves.turn_from hphase (Nat.le_refl _) rfl rfl rfl
                (Or.inl (List.sublist_cons_self number rest)) (fun _ => Or.inl) nofun
          · exact Moves.idle
  | abandoning stalled =>
      cases stalled with
      | nil =>
          exact Moves.turn_from hphase (Nat.le_refl _) rfl rfl rfl (Or.inr ⟨rfl, rfl⟩) nofun nofun
      | cons number rest =>
          simp only
          split
          · exact Moves.abandon hphase ‹_›
          · exact Moves.idle
  | withdrawing left moved =>
      cases left with
      | nil =>
          simp only
          split
          · rename_i hnone
            exact Moves.turn_bare hphase (Nat.le_refl _) (List.isEmpty_iff.mp hnone).symm rfl rfl rfl
              rfl nofun
          · exact Moves.turn_bare hphase (Nat.le_succ _) rfl rfl rfl rfl rfl nofun
      | cons number rest =>
          simp only
          split
          · exact Moves.withdraw hphase ‹_›
          · exact Moves.turn_from hphase (Nat.le_refl _) rfl rfl rfl
              (Or.inl (List.sublist_cons_self number rest)) nofun nofun
  | stopped => exact Moves.idle

/-- **Every step is one of these.** -/
theorem moves_step (workers : Nat) (limit : Option Nat) (loop : Loop) (event : Event) :
    Moves limit loop (loop.step workers limit event) := by
  have hticket : ∀ {number : Nat} {act : Ticket → Loop},
      (∀ ticket, loop.tickets[number]? = some ticket → Moves limit loop (act ticket)) →
        Moves limit loop ((loop.tickets[number]?.map act).getD loop) := by
    intro number act hact
    cases h : loop.tickets[number]? with
    | none => exact Moves.idle
    | some ticket => exact hact ticket h
  cases event with
  | take number =>
      refine hticket fun ticket has => ?_
      unfold take
      split
      · rename_i hstage
        split
        · exact Moves.work has (by rw [hstage]; rfl) (by rw [hstage]; rfl) rfl
            (Or.inl ⟨rfl, by rw [hstage]; rfl⟩) nofun
        · exact Moves.idle
      · exact Moves.idle
  | start number =>
      refine hticket fun ticket has => ?_
      unfold start
      split
      · rename_i hstage
        exact Moves.work has (by rw [hstage]; rfl) (by rw [hstage]; rfl) rfl
          (Or.inr ⟨rfl, rfl⟩) nofun
      · exact Moves.idle
  | look number =>
      refine hticket fun ticket has => ?_
      unfold look
      split
      · rename_i hstage
        cases hoff : loop.calledOff with
        | true =>
            exact Moves.work has (by rw [hstage]; rfl) (by rw [hstage]; rfl) rfl
              (Or.inl ⟨rfl, by rw [hstage]; rfl⟩) fun found heq =>
                Or.inl ⟨(Ticket.Stage.ended.inj heq).symm, hoff⟩
        | false =>
            exact Moves.work has (by rw [hstage]; rfl) (by rw [hstage]; rfl) rfl
              (Or.inl ⟨rfl, by rw [hstage]; rfl⟩) nofun
      · exact Moves.idle
  | finish number =>
      refine hticket fun ticket has => ?_
      unfold finish
      split
      · rename_i found hstage hfound
        refine Moves.work has (by rw [hstage]; rfl) (by rw [hstage]; rfl) rfl
          (Or.inl ⟨rfl, by rw [hstage]; rfl⟩) fun found' heq => Or.inr ?_
        rw [← Ticket.Stage.ended.inj heq]
        exact ⟨rfl, hfound⟩
      · exact Moves.idle
  | pass ticks => exact Moves.pass ticks
  | callOff => exact Moves.callOff
  | proceed seen => exact moves_proceed limit loop seen

end SourceAtlas.Reading.Loop
