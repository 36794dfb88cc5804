/-
# SourceAtlas.Proofs.Reading.Polled — the loop takes in what the poll of a round takes in.

The loop settles tickets one after another as the pool settles their reads, whether it takes them in
(`settling_collect`) or gives them up (`settling_abandon`), and so all that it has picked
(`Settling.exists_picked`).  Between that it judges what is pending.  Where every read that runs has
begun just now, none is late, and the loop comes round to its next head (`Mirrors.exists_polled`).
-/
import SourceAtlas.Proofs.Reading.Progress
import SourceAtlas.Proofs.Reading.Readers

namespace SourceAtlas.Reading

/-! ## Pools between polls -/

/-- Whether a read has ended. -/
def Stage.isEnded : Stage → Bool
  | ended _ => true
  | _ => false

/-- Whether a read runs. -/
def Stage.isRunning : Stage → Bool
  | running _ => true
  | _ => false

/-- Whether a read has run for longer than a limit at a time. -/
def Stage.isLate (bound time : Nat) : Stage → Bool
  | running since => decide (bound < time - since)
  | _ => false

/-- No time goes by with the event. -/
def Event.Instant : Event → Prop
  | .pass _ => False
  | _ => True

namespace Pool

variable {pool next : Pool} {event : Event}

/-- Every read that runs has begun just now. -/
def Fresh (pool : Pool) : Prop :=
  ∀ p ∈ pool.pending, ∀ since, p.stage = .running since → since = pool.now

theorem fresh_of_not_running (h : ∀ p ∈ pool.pending, p.stage.isRunning = false) : pool.Fresh := by
  intro p hp since hstage
  have hidle := h p hp
  rw [hstage] at hidle
  cases hidle

theorem Moves.now_eq (h : Moves pool event next) (hinstant : event.Instant) :
    next.now = pool.now := by
  cases h with
  | pass ticks => exact hinstant.elim
  | _ => rfl

theorem Fresh.step (h : pool.Fresh) (hinstant : event.Instant) : (pool.step event).Fresh := by
  have hmoves := moves_step pool event
  intro q hq since hruns
  rw [hmoves.now_eq hinstant]
  rcases hmoves.stage_of_mem hq with ⟨p, hp, -, hstage⟩ | ⟨-, hstage⟩ | ⟨found, -, hstage⟩
  · exact h p hp since (hstage.trans hruns)
  · exact Stage.running.inj (hruns.symm.trans hstage)
  · rw [hruns] at hstage
    cases hstage

theorem Fresh.steps {events : List Event} (h : pool.Fresh)
    (hinstant : ∀ event ∈ events, event.Instant) : (pool.steps events).Fresh := by
  induction events generalizing pool with
  | nil => exact h
  | cons event rest ih =>
      exact ih (h.step (hinstant event List.mem_cons_self))
        fun other hother => hinstant other (List.mem_cons_of_mem event hother)

theorem ended_eq (pool : Pool) :
    pool.ended = (pool.pending.filter (·.stage.isEnded)).map (·.path) := by
  unfold ended
  induction pool.pending with
  | nil => rfl
  | cons p rest ih =>
      rw [List.filterMap_cons, List.filter_cons]
      cases p.stage with
      | ended found => exact congrArg _ ih
      | waiting => exact ih
      | running since => exact ih

theorem running_eq (pool : Pool) :
    pool.running = (pool.pending.filter (·.stage.isRunning)).map (·.path) := by
  unfold running
  induction pool.pending with
  | nil => rfl
  | cons p rest ih =>
      rw [List.filterMap_cons, List.filter_cons]
      cases p.stage with
      | running since => exact congrArg _ ih
      | waiting => exact ih
      | ended found => exact ih

end Pool

namespace Loop

variable {jobs : List Job} {workers : Nat} {limit : Option Nat} {loop next : Loop} {pool : Pool}

/-! ## Settling one after another -/

/-- What settling tickets leaves alone. -/
structure Settles (loop : Loop) (numbers : List Nat) (next : Loop) : Prop where
  tickets : next.tickets = loop.tickets
  begun : next.begun = loop.begun
  readers : next.readers = loop.readers
  calledOff : next.calledOff = loop.calledOff
  pending : next.pending = loop.pending.diff numbers

theorem Settles.turn (loop : Loop) (abandoned : List String) (phase : Phase) :
    Settles loop [] { loop with abandoned, phase } :=
  ⟨rfl, rfl, rfl, rfl, (List.diff_nil _).symm⟩

theorem Settles.refl (loop : Loop) : Settles loop [] loop :=
  Settles.turn loop loop.abandoned loop.phase

theorem Settles.trans {last : Loop} {numbers more : List Nat} (h : Settles loop numbers next)
    (h' : Settles next more last) : Settles loop (numbers ++ more) last where
  tickets := h'.tickets.trans h.tickets
  begun := h'.begun.trans h.begun
  readers := h'.readers.trans h.readers
  calledOff := h'.calledOff.trans h.calledOff
  pending := by rw [h'.pending, h.pending, List.diff_append]

theorem erase_eq_diff (numbers : List Nat) (number : Nat) :
    numbers.erase number = numbers.diff [number] := by
  rw [List.diff_cons, List.diff_nil]

/-- **`Settling jobs workers limit phaseOf act ripe`** — in the phases for it, the loop settles any
one ticket as an event settles its read, if the read's stage is ripe for that at the time. -/
structure Settling (jobs : List Job) (workers : Nat) (limit : Option Nat)
    (phaseOf : List Nat → Phase) (act : String → Reading.Event) (ripe : Nat → Stage → Prop) :
    Prop where
  path : ∀ path, (act path).path? = some path
  instant : ∀ path, (act path).Instant
  one : ∀ {loop : Loop} {pool : Pool} {number : Nat} {rest : List Nat} {p : Pending},
    Mirrors jobs pool loop → loop.phase = phaseOf (number :: rest) → number ∈ loop.pending →
      Shows loop number p → pool.stage? p.path = some p.stage → ripe pool.now p.stage →
        ∃ next, Reaches workers limit loop next ∧ Mirrors jobs (pool.step (act p.path)) next ∧
          next.phase = phaseOf rest ∧ Settles loop [number] next

namespace Settling

variable {phaseOf : List Nat → Phase} {act : String → Reading.Event} {ripe : Nat → Stage → Prop}

/-- Tickets and reads side by side are settled one after another. -/
theorem exists_all (hone : Settling jobs workers limit phaseOf act ripe)
    (hjobs : (jobs.map (·.path)).Nodup) (numbers : List Nat) (reads : List Pending)
    (h : Mirrors jobs pool loop) (hphase : loop.phase = phaseOf numbers)
    (hboth : List.Forall₂ (Shows loop) numbers reads) (hdistinct : numbers.Nodup)
    (hpending : ∀ number ∈ numbers, number ∈ loop.pending)
    (hpaths : (reads.map (·.path)).Nodup)
    (hstages : ∀ p ∈ reads, pool.stage? p.path = some p.stage ∧ ripe pool.now p.stage) :
    ∃ next, Reaches workers limit loop next ∧
      Mirrors jobs (pool.steps (reads.map fun p => act p.path)) next ∧
        next.phase = phaseOf [] ∧ Settles loop numbers next := by
  induction numbers generalizing loop pool reads with
  | nil =>
      cases hboth
      exact ⟨loop, Reaches.refl loop, h, hphase, Settles.refl loop⟩
  | cons number rest ih =>
      cases hboth with
      | @cons _ p _ others hshows hrest =>
          obtain ⟨hfirst, hdistinct'⟩ := List.nodup_cons.mp hdistinct
          obtain ⟨hpath, hpaths'⟩ := List.nodup_cons.mp hpaths
          have hnumber := hpending number List.mem_cons_self
          obtain ⟨hstage, hripe⟩ := hstages p List.mem_cons_self
          obtain ⟨next, hreaches, hmirrors, hnextPhase, hsettles⟩ :=
            hone.one h hphase hnumber hshows hstage hripe
          have herase : next.pending = loop.pending.erase number :=
            hsettles.pending.trans (erase_eq_diff _ _).symm
          -- the other tickets and reads are as they were
          have hshows' : List.Forall₂ (Shows next) rest others :=
            hrest.imp fun other q hq => hq.congr hsettles.tickets hsettles.begun hsettles.readers
          have hpending' : ∀ other ∈ rest, other ∈ next.pending := by
            intro other hother
            rw [herase]
            have hmem := hpending other (List.mem_cons_of_mem _ hother)
            refine (h.orderly.mem_erase hjobs).mpr ⟨?_, hmem⟩
            rintro rfl
            exact hfirst hother
          have hstages' : ∀ q ∈ others, (pool.step (act p.path)).stage? q.path = some q.stage ∧
              ripe (pool.step (act p.path)).now q.stage := by
            intro q hq
            obtain ⟨hqstage, hqripe⟩ := hstages q (List.mem_cons_of_mem _ hq)
            refine ⟨stage?_step_of_ne (act p.path) (h.nodup_unsettled hjobs) hqstage ?_, ?_⟩
            · rw [hone.path]
              intro heq
              exact hpath (List.mem_map.mpr ⟨q, hq, (Option.some.inj heq).symm⟩)
            · rw [(Pool.moves_step pool (act p.path)).now_eq (hone.instant p.path)]
              exact hqripe
          obtain ⟨last, hreaches', hmirrors', hlastPhase, hsettles'⟩ :=
            ih others hmirrors hnextPhase hshows' hdistinct' hpending' hpaths' hstages'
          exact ⟨last, hreaches.trans hreaches', hmirrors', hlastPhase, hsettles.trans hsettles'⟩

/-- **The loop settles the tickets that it has picked** as the pool settles the reads. -/
theorem exists_picked (hone : Settling jobs workers limit phaseOf act ripe)
    (hjobs : (jobs.map (·.path)).Nodup) (h : Mirrors jobs pool loop) {pick : Nat → Bool}
    {pickRead : Pending → Bool} (hphase : loop.phase = phaseOf (loop.pending.filter pick))
    (hsame : ∀ number ∈ loop.pending, ∀ p ∈ pool.pending, Shows loop number p →
      pick number = pickRead p)
    (hripe : ∀ p ∈ pool.pending, pickRead p = true → ripe pool.now p.stage) :
    ∃ next, Reaches workers limit loop next ∧
      Mirrors jobs (pool.steps ((pool.pending.filter pickRead).map fun p => act p.path)) next ∧
        next.phase = phaseOf [] ∧ Settles loop (loop.pending.filter pick) next := by
  have hdistinct := h.nodup_unsettled hjobs
  have hstages : ∀ p ∈ pool.pending.filter pickRead,
      pool.stage? p.path = some p.stage ∧ ripe pool.now p.stage := by
    intro p hp
    obtain ⟨hp, hpicked⟩ := List.mem_filter.mp hp
    exact ⟨Pool.stage?_of_mem hdistinct hp, hripe p hp hpicked⟩
  exact hone.exists_all hjobs _ _ h hphase (forall₂_filter_of_mem h.pending hsame)
    ((h.orderly.nodup_pending hjobs).filter _)
    (fun number hnumber => (List.mem_filter.mp hnumber).1)
    ((List.filter_sublist.map _).nodup hdistinct) hstages

end Settling

/-- Taking in a ticket mirrors taking in its read. -/
theorem settling_collect (hjobs : (jobs.map (·.path)).Nodup) :
    Settling jobs workers limit .collecting .collect fun _ stage => stage.isEnded = true where
  path := fun _ => rfl
  instant := fun _ => trivial
  one := by
    intro loop pool number rest p h hphase hnumber hshows hstage hended
    obtain ⟨ticket, has, hpath, -, hstands⟩ := hshows
    obtain ⟨found, hfound⟩ : ∃ found, p.stage = .ended found := by
      cases hp : p.stage with
      | ended found => exact ⟨found, rfl⟩
      | _ =>
          rw [hp] at hended
          cases hended
    rw [hfound] at hstage hstands
    have hticket : ticket.stage = .ended found := hstands
    have hcontains : loop.pending.contains number = true := List.contains_iff_mem.mpr hnumber
    rw [← hpath] at hstage ⊢
    cases found with
    | some found =>
        have hstep : loop.proceed limit [] =
            { loop.settle number with
              results := (ticket.job.path, found) :: loop.results
              phase := .collecting rest } := by
          unfold proceed
          rw [hphase]
          simp only [has, hcontains, collect, hticket]
          rfl
        have hreaches : Reaches workers limit loop _ := Reaches.proceed hstep
        have hpool : pool.step (.collect ticket.job.path) =
            { pool.settle ticket.job.path with
              results := (ticket.job.path, found) :: pool.results } := by
          simp only [Pool.step, hstage]
          rfl
        refine ⟨_, hreaches, ?_, rfl, rfl, rfl, rfl, rfl, erase_eq_diff _ _⟩
        rw [hpool]
        exact h.settle hjobs hnumber has (h.orderly.reaches hjobs hreaches) rfl rfl rfl rfl
          (congrArg _ h.results) rfl
    | none =>
        have hstep : loop.proceed limit [] =
            { loop.settle number with
              skipped := ticket.job.path :: loop.skipped
              phase := .collecting rest } := by
          unfold proceed
          rw [hphase]
          simp only [has, hcontains, collect, hticket]
          rfl
        have hreaches : Reaches workers limit loop _ := Reaches.proceed hstep
        have hpool : pool.step (.collect ticket.job.path) = pool.settle ticket.job.path := by
          simp only [Pool.step, hstage]
        refine ⟨_, hreaches, ?_, rfl, rfl, rfl, rfl, rfl, erase_eq_diff _ _⟩
        rw [hpool]
        exact h.settle hjobs hnumber has (h.orderly.reaches hjobs hreaches) rfl rfl rfl rfl h.results
          rfl

/-- Giving up a ticket mirrors giving up its read. -/
theorem settling_abandon (hjobs : (jobs.map (·.path)).Nodup) :
    Settling jobs workers limit .abandoning (.abandon · patience) fun now stage =>
      ∃ since, stage = .running since ∧ patience < now - since where
  path := fun _ => rfl
  instant := fun _ => trivial
  one := by
    intro loop pool number rest p h hphase hnumber hshows hstage hruns
    obtain ⟨ticket, has, hpath, -, -⟩ := hshows
    obtain ⟨since, hsince, hlate⟩ := hruns
    rw [hsince] at hstage
    rw [← hpath] at hstage ⊢
    have hstep : loop.proceed limit [] =
        { loop.settle number with
          results := (ticket.job.path, OrderedSet.empty) :: loop.results
          phase := .abandoning rest } := by
      unfold proceed
      rw [hphase]
      simp only [has]
    have hreaches : Reaches workers limit loop _ := Reaches.proceed hstep
    have hpool : pool.step (.abandon ticket.job.path patience) =
        { pool.settle ticket.job.path with
          results := (ticket.job.path, OrderedSet.empty) :: pool.results } := by
      simp only [Pool.step, hstage]
      rw [if_pos hlate]
      rfl
    refine ⟨_, hreaches, ?_, rfl, rfl, rfl, rfl, rfl, erase_eq_diff _ _⟩
    rw [hpool]
    exact h.settle hjobs hnumber has (h.orderly.reaches hjobs hreaches) rfl rfl rfl rfl
      (congrArg _ h.results) rfl

/-! ## Polls -/

/-- The limit of a schedule. -/
def limitOf (limited : Bool) : Option Nat :=
  if limited then some patience else none

/-! ## Taking in -/

theorem hasEnded_eq {number : Nat} {p : Pending} (hshows : Shows loop number p) :
    loop.hasEnded number = p.stage.isEnded := by
  obtain ⟨ticket, has, -, -, hstands⟩ := hshows
  unfold hasEnded
  rw [has]
  show ticket.stage.done = _
  rw [hstands.stage_eq]
  cases p.stage with
  | _ => rfl

/-- Settling what has ended leaves as much room. -/
theorem Roomy.settled (h : Roomy loop) {numbers : List Nat} (hsettles : Settles loop numbers next)
    (hended : ∀ number ∈ numbers, loop.hasEnded number = true) : Roomy next := by
  unfold Roomy
  rw [hsettles.pending, hsettles.tickets, hsettles.readers]
  intro hne number ticket has hreaders hbusy
  have hne' : loop.pending ≠ [] := by
    intro hnil
    rw [hnil, List.nil_diff] at hne
    exact hne rfl
  refine List.mem_diff_of_mem (h hne' number ticket has hreaders hbusy) fun hmem => ?_
  have hdone := hended number hmem
  unfold hasEnded at hdone
  rw [has] at hdone
  have hdone : ticket.stage.done = true := hdone
  cases hstage : ticket.stage with
  | ended found =>
      rw [hstage] at hbusy
      cases hbusy
  | _ =>
      rw [hstage] at hdone
      cases hdone

namespace Mirrors

section Judging

variable (h : Mirrors jobs pool loop) (hjobs : (jobs.map (·.path)).Nodup)
include h hjobs

/-- What the loop does apart from its tickets leaves it a mirror. -/
theorem turn {abandoned : List String} {phase : Phase}
    (hreaches : Reaches workers limit loop { loop with abandoned, phase }) :
    Mirrors jobs pool { loop with abandoned, phase } where
  orderly := h.orderly.reaches hjobs hreaches
  results := h.results
  now := h.now
  pending := h.pending.imp fun _ _ hshows => hshows.congr rfl rfl rfl

/-- The loop takes in all that the poll takes in. -/
theorem exists_collected (workers : Nat) (limit : Option Nat) (hphase : loop.phase = .waiting) :
    ∃ next, Reaches workers limit loop next ∧
      Mirrors jobs (pool.steps (pool.ended.map .collect)) next ∧ next.phase = .collecting [] ∧
        Settles loop (loop.pending.filter loop.hasEnded) next := by
  have hproceed : loop.proceed limit loop.pending =
      { loop with phase := .collecting (loop.pending.filter loop.hasEnded) } := by
    have hseen : (loop.pending.filter fun n => loop.pending.contains n && loop.hasEnded n) =
        loop.pending.filter loop.hasEnded := by
      refine List.filter_congr fun number hnumber => ?_
      rw [List.contains_iff_mem.mpr hnumber, Bool.true_and]
    unfold proceed
    rw [hphase]
    simp only [hseen]
  have hreaches : Reaches workers limit loop _ := Reaches.proceed hproceed
  have hfirst := h.turn hjobs hreaches
  obtain ⟨next, hreaches', hmirrors, hphase', hsettles⟩ :=
    (settling_collect hjobs).exists_picked hjobs hfirst rfl
      (fun number _ p _ hshows => hasEnded_eq hshows) fun p _ hended => hended
  refine ⟨next, hreaches.trans hreaches', ?_, hphase', (Settles.turn loop _ _).trans hsettles⟩
  rw [Pool.ended_eq, List.map_map]
  exact hmirrors

/-- Then the loop judges what is pending, if there is a limit. -/
theorem exists_judged (workers bound : Nat) (hphase : loop.phase = .collecting []) :
    ∃ next, Reaches workers (some bound) loop next ∧ Mirrors jobs pool next ∧
      next.phase = .judging next.now [] (next.pending.filter (next.late bound next.now)) ∧
        Settles loop [] next := by
  have hproceed : loop.proceed (some bound) [] =
      { loop with phase := .judging loop.now loop.pending [] } := by
    unfold proceed
    rw [hphase]
    rfl
  have hissued : ∀ number ∈ loop.pending, ∃ ticket, loop.tickets[number]? = some ticket := by
    intro number hnumber
    obtain ⟨ticket, has, -⟩ := h.orderly.issued number (List.mem_append_left _ hnumber)
    exact ⟨ticket, has⟩
  have hphase' : ({ loop with phase := .judging loop.now loop.pending [] } : Loop).phase =
      .judging loop.now loop.pending [] := rfl
  have hjudged : ∃ abandoned, Reaches workers (some bound) _ _ :=
    reaches_judged loop.pending [] hphase' hissued
  obtain ⟨abandoned, hjudged⟩ := hjudged
  have hreaches := (Reaches.proceed hproceed).trans hjudged
  exact ⟨_, hreaches, h.turn hjobs hreaches, rfl, Settles.turn loop abandoned _⟩

/-- Only what runs is ever late. -/
theorem late_eq {number : Nat} {p : Pending} (hshows : Shows loop number p) (bound time : Nat) :
    loop.late bound time number = p.stage.isLate bound time := by
  obtain ⟨ticket, has, -, -, hstands⟩ := hshows
  unfold late
  rw [has]
  show (!ticket.stage.done && _) = _
  have hstage := hstands.stage_eq
  cases hread : p.stage with
  | waiting =>
      rw [hread] at hstage
      have hqueued : ticket.stage = .queued := hstage
      -- no time is noted of a read that has not begun
      have hnone : loop.begun.lookup ticket.job.path = none := by
        refine lookup_of_not_mem fun hnoted => ?_
        obtain ⟨other, hother, hpath, hstarted⟩ := (h.orderly.started _).mp hnoted
        have hsame := h.orderly.eq_of_path hjobs hother (List.mem_of_getElem? has)
          (live_of_started hstarted) (by rw [hqueued]; rfl) hpath
        rw [hsame, hqueued] at hstarted
        cases hstarted
      rw [hqueued, hnone]
      rfl
  | running since =>
      rw [hread] at hstands
      rw [hstands.1, hstands.2]
      rfl
  | ended found =>
      rw [hstage, hread]
      rfl

end Judging

end Mirrors

/-! ## Coming round -/

/-- **`AtHead jobs pool loop`** — the loop is at the head of a round, as a mirror of the pool. -/
structure AtHead (jobs : List Job) (pool : Pool) (loop : Loop) : Prop where
  mirrors : Mirrors jobs pool loop
  phase : loop.phase = .head
  roomy : Roomy loop
  fresh : pool.Fresh

/-- **`ComesRound workers limit jobs loop pool next`** — some steps later the loop is at the head of
the next round. -/
structure ComesRound (workers : Nat) (limit : Option Nat) (jobs : List Job) (loop : Loop)
    (pool : Pool) (next : Loop) : Prop where
  reaches : Reaches workers limit loop next
  calledOff : next.calledOff = loop.calledOff
  head : AtHead jobs pool next

theorem ComesRound.after {first : Loop} (h : ComesRound workers limit jobs first pool next)
    (hreaches : Reaches workers limit loop first) (hcalledOff : first.calledOff = loop.calledOff) :
    ComesRound workers limit jobs loop pool next :=
  ⟨hreaches.trans h.reaches, h.calledOff.trans hcalledOff, h.head⟩

namespace Mirrors

section Polls

variable (h : Mirrors jobs pool loop) (hjobs : (jobs.map (·.path)).Nodup)
include h hjobs

/-- The loop turns to the head. -/
theorem comesRound (hroomy : Roomy loop) (hfresh : pool.Fresh)
    (hproceed : loop.proceed limit [] = { loop with phase := .head }) :
    ComesRound workers limit jobs loop pool { loop with phase := .head } := by
  have hreaches : Reaches workers limit loop _ := Reaches.proceed hproceed
  exact ⟨hreaches, rfl, h.turn hjobs hreaches, rfl, hroomy, hfresh⟩

/-- **A poll that takes in what has ended leads to the next head**, since nothing is late. -/
theorem exists_polled (limited : Bool) (hphase : loop.phase = .waiting) (hroomy : Roomy loop)
    (hfresh : pool.Fresh) :
    ∃ next, ComesRound workers (limitOf limited) jobs loop
      (pool.steps (pool.ended.map .collect)) next := by
  obtain ⟨second, hreaches, hmirrors, hsecond, hsettles⟩ :=
    h.exists_collected hjobs workers (limitOf limited) hphase
  have hroomy' : Roomy second :=
    hroomy.settled hsettles fun number hnumber => (List.mem_filter.mp hnumber).2
  have hinstant : ∀ event ∈ pool.ended.map Reading.Event.collect, event.Instant := by
    intro event hevent
    obtain ⟨path, -, rfl⟩ := List.mem_map.mp hevent
    trivial
  have hfresh' := hfresh.steps hinstant
  cases limited with
  | false =>
      have hproceed : second.proceed (limitOf false) [] = { second with phase := .head } := by
        unfold proceed
        rw [hsecond]
        rfl
      exact ⟨_, (hmirrors.comesRound hjobs hroomy' hfresh' hproceed).after hreaches
        hsettles.calledOff⟩
  | true =>
      obtain ⟨third, hreaches', hmirrors', hthird, hsettles'⟩ :=
        hmirrors.exists_judged hjobs workers patience hsecond
      have hroomy'' : Roomy third := hroomy'.settled hsettles' nofun
      -- no time has gone by since the reads began
      have hnone : third.pending.filter (third.late patience third.now) = [] := by
        rw [List.filter_eq_nil_iff]
        intro number hnumber hlate
        obtain ⟨p, hp, hshows⟩ := exists_right_of_mem hmirrors'.pending hnumber
        rw [hmirrors'.late_eq hjobs hshows] at hlate
        cases hstage : p.stage with
        | running since =>
            rw [hstage, hfresh' p hp since hstage, hmirrors'.now] at hlate
            have hlate := of_decide_eq_true hlate
            omega
        | _ =>
            rw [hstage] at hlate
            cases hlate
      have hproceed : third.proceed (limitOf true) [] = { third with phase := .head } := by
        unfold proceed
        rw [hthird, hnone]
        rfl
      exact ⟨_, (hmirrors'.comesRound hjobs hroomy'' hfresh' hproceed).after
        (hreaches.trans hreaches') (hsettles'.calledOff.trans hsettles.calledOff)⟩

end Polls

end Mirrors

end Loop

end SourceAtlas.Reading
