/-
# SourceAtlas.Proofs.Reading.GivenUp — the loop gives up what the poll of a round gives up.

Where nothing has ended, a round lets the time of a read go by, gives up all that runs and moves
what waits to fresh readers.  The loop judges all that runs stalled and gives it up
(`Mirrors.exists_abandoned`), and takes back and submits what waits (`Mirrors.exists_moved`), so
that it comes round to its next head as a mirror of the pool (`Mirrors.exists_givenUp`).
-/
import SourceAtlas.Proofs.Reading.Polled

namespace SourceAtlas.Reading

/-- If nothing has ended and all that runs is given up, the rest waits. -/
theorem Pool.waits_of_mem_abandoned {pool : Pool} (hdistinct : pool.unsettled.Nodup)
    (hended : pool.ended = [])
    (hlate : ∀ p ∈ pool.pending, p.stage.isLate patience pool.now = p.stage.isRunning) {p : Pending}
    (hp : p ∈ (pool.steps (pool.running.map (.abandon · patience))).pending) :
    p.stage = .waiting := by
  have hquiet : ∀ event ∈ pool.running.map (Event.abandon · patience), event.Quiet := by
    intro event hevent
    obtain ⟨path, -, rfl⟩ := List.mem_map.mp hevent
    trivial
  obtain ⟨q, hq, hpath, hstage⟩ := Pool.stage_of_mem_steps hquiet hp
  rw [← hstage]
  cases hq' : q.stage with
  | waiting => rfl
  | running since =>
      have hlong := hlate q hq
      rw [hq'] at hlong
      have hlong : patience < pool.now - since := of_decide_eq_true hlong
      have hlate : since + patience < pool.now := by omega
      have hlost := Pool.not_mem_unsettled_abandonAll hdistinct hq hq' hlate
        (Pool.mem_running hq hq')
      exact absurd (Pool.mem_unsettled.mpr ⟨p, hp, hpath.symm⟩) hlost
  | ended found =>
      have hmem := Pool.mem_ended hq hq'
      rw [hended] at hmem
      cases hmem

namespace Loop

variable {jobs : List Job} {workers : Nat} {limit : Option Nat} {loop next : Loop} {pool : Pool}

/-- What stands side by side after files have been submitted. -/
theorem shows_submitted {moved : List Job} {reads : List Pending} (tickets : List Ticket)
    (htickets : loop.tickets = tickets ++ moved.map fun job => ⟨job, loop.readers, .queued⟩)
    (hboth : List.Forall₂ (fun job p => job.path = p.path ∧ p.stage = .waiting) moved reads) :
    List.Forall₂ (Shows loop) (List.range' tickets.length moved.length) reads := by
  induction hboth generalizing tickets with
  | nil => exact List.Forall₂.nil
  | @cons job p rest others hjob hrest ih =>
      obtain ⟨hpath, hwaits⟩ := hjob
      rw [List.length_cons, List.range'_succ]
      refine List.Forall₂.cons ⟨⟨job, loop.readers, .queued⟩, ?_, hpath, rfl, ?_⟩ ?_
      · rw [htickets, List.getElem?_append_right (Nat.le_refl _), Nat.sub_self]
        rfl
      · rw [hwaits]
        rfl
      · have hrest' := ih (tickets ++ [⟨job, loop.readers, .queued⟩])
          (by rw [htickets, List.map_cons, List.append_assoc]; rfl)
        rw [List.length_append, List.length_singleton] at hrest'
        exact hrest'

/-- The files of tickets whose reads wait. -/
theorem forall₂_jobsOf {numbers : List Nat} {reads : List Pending}
    (hboth : List.Forall₂ (Shows loop) numbers reads) (hwaits : ∀ p ∈ reads, p.stage = .waiting) :
    List.Forall₂ (fun job p => job.path = p.path ∧ p.stage = .waiting)
      (jobsOf loop.tickets numbers) reads := by
  induction hboth with
  | nil => exact List.Forall₂.nil
  | @cons number p rest others hshows hrest ih =>
      obtain ⟨ticket, has, hpath, -⟩ := hshows
      unfold jobsOf at ih ⊢
      rw [List.filterMap_cons_some (by rw [has]; rfl)]
      exact List.Forall₂.cons ⟨hpath, hwaits p List.mem_cons_self⟩
        (ih fun q hq => hwaits q (List.mem_cons_of_mem p hq))

/-- Reads that are moved to fresh readers stand where they stood. -/
theorem Mirrors.requeued (h : Mirrors jobs pool loop) (paths : List String) :
    Mirrors jobs (pool.steps (.refresh :: paths.map .requeue)) loop := by
  have hrefreshed : Mirrors jobs (pool.step .refresh) loop :=
    ⟨h.orderly, h.results, h.now, h.pending⟩
  have hrequeue : ∀ (pool : Pool) path, Mirrors jobs pool loop →
      Mirrors jobs (pool.step (.requeue path)) loop := by
    intro pool path h
    simp only [Pool.step]
    split
    · refine ⟨h.orderly, h.results, h.now, forall₂_map_of_mem h.pending ?_⟩
      intro number _ p _ hshows
      split
      · exact hshows
      · exact hshows
    · exact h
  rw [Pool.steps_cons]
  generalize pool.step .refresh = pool at hrefreshed
  induction paths generalizing pool with
  | nil => exact hrefreshed
  | cons path rest ih => exact ih _ (hrequeue pool path hrefreshed)

theorem ComesRound.requeued (h : ComesRound workers limit jobs loop pool next)
    (paths : List String) :
    ComesRound workers limit jobs loop (pool.steps (.refresh :: paths.map .requeue)) next := by
  have hinstant : ∀ event ∈ Reading.Event.refresh :: paths.map .requeue, event.Instant := by
    intro event hevent
    rcases List.mem_cons.mp hevent with rfl | hevent
    · trivial
    · obtain ⟨path, -, rfl⟩ := List.mem_map.mp hevent
      trivial
  exact ⟨h.reaches, h.calledOff, h.head.mirrors.requeued paths, h.head.phase, h.head.roomy,
    h.head.fresh.steps hinstant⟩

namespace Mirrors

section GivingUp

variable (h : Mirrors jobs pool loop) (hjobs : (jobs.map (·.path)).Nodup)
include h hjobs

/-- The loop gives up all that runs, if all that runs is late. -/
theorem exists_abandoned (workers : Nat) (limit : Option Nat)
    (hlate : ∀ p ∈ pool.pending, p.stage.isLate patience loop.now = p.stage.isRunning)
    (hphase : loop.phase = .abandoning (loop.pending.filter (loop.late patience loop.now))) :
    ∃ next, Reaches workers limit loop next ∧
      Mirrors jobs (pool.steps (pool.running.map (.abandon · patience))) next ∧
        next.phase = .abandoning [] ∧ next.calledOff = loop.calledOff := by
  have hsame : ∀ number ∈ loop.pending, ∀ p ∈ pool.pending, Shows loop number p →
      loop.late patience loop.now number = p.stage.isRunning :=
    fun number _ p hp hshows => (h.late_eq hjobs hshows patience loop.now).trans (hlate p hp)
  have hripe : ∀ p ∈ pool.pending, p.stage.isRunning = true →
      ∃ since, p.stage = .running since ∧ patience < pool.now - since := by
    intro p hp hruns
    have hlate := (hlate p hp).trans hruns
    cases hstage : p.stage with
    | running since =>
        rw [hstage, h.now] at hlate
        exact ⟨since, rfl, of_decide_eq_true hlate⟩
    | _ =>
        rw [hstage] at hruns
        cases hruns
  obtain ⟨next, hreaches, hmirrors, hnext, hsettles⟩ :=
    (settling_abandon hjobs).exists_picked hjobs h hphase hsame hripe
  refine ⟨next, hreaches, ?_, hnext, hsettles.calledOff⟩
  rw [Pool.running_eq, List.map_map]
  exact hmirrors

/-- The loop takes back all that waits and submits it to fresh readers. -/
theorem exists_moved (workers : Nat) (limit : Option Nat)
    (hwaits : ∀ p ∈ pool.pending, p.stage = .waiting)
    (hphase : loop.phase = .abandoning []) :
    ∃ next, ComesRound workers limit jobs loop pool next := by
  have hproceed : loop.proceed limit [] = { loop with phase := .withdrawing loop.pending [] } := by
    unfold proceed
    rw [hphase]
  have hreaches : Reaches workers limit loop _ := Reaches.proceed hproceed
  have hqueued : ∀ number ∈ loop.pending, ∃ ticket, loop.tickets[number]? = some ticket ∧
      ticket.stage = .queued := by
    intro number hnumber
    obtain ⟨p, hp, ticket, has, -, -, hstands⟩ := exists_right_of_mem h.pending hnumber
    rw [hwaits p hp] at hstands
    exact ⟨ticket, has, hstands⟩
  have hwithdrawn : ∃ tickets, Reaches workers limit
      { loop with phase := .withdrawing loop.pending [] }
      { loop with
        tickets
        pending := []
        phase := .withdrawing [] (jobsOf loop.tickets loop.pending) } :=
    reaches_withdrawn loop.pending [] rfl rfl (h.orderly.nodup_pending hjobs) hqueued
  obtain ⟨tickets, hwithdrawn⟩ := hwithdrawn
  have hback := hreaches.trans hwithdrawn
  have hfresh : pool.Fresh := by
    refine Pool.fresh_of_not_running fun p hp => ?_
    rw [hwaits p hp]
    rfl
  have hboth := forall₂_jobsOf h.pending hwaits
  generalize jobsOf loop.tickets loop.pending = moved at hback hboth
  have horderly := h.orderly.reaches hjobs hback
  cases moved with
  | nil =>
      -- nothing waits, and the loop has nothing left
      cases hnone : pool.pending with
      | cons p rest =>
          rw [hnone] at hboth
          cases hboth
      | nil =>
          have hfirst : Mirrors jobs pool
              { loop with tickets, pending := [], phase := .withdrawing [] [] } :=
            ⟨horderly, h.results, h.now, hnone ▸ List.Forall₂.nil⟩
          exact ⟨_, (hfirst.comesRound hjobs (fun hne => absurd rfl hne) hfresh rfl).after hback rfl⟩
  | cons job rest =>
      have hrefreshed : Reaches workers limit
          { loop with tickets, pending := [], phase := .withdrawing [] (job :: rest) }
          { loop with
            tickets
            pending := []
            readers := loop.readers + 1
            phase := .submitting (job :: rest) [] } := Reaches.step (.proceed [])
      have hsubmitted := hback.trans (hrefreshed.trans (reaches_submitted (job :: rest) [] rfl))
      refine ⟨_, hsubmitted, rfl,
        ⟨h.orderly.reaches hjobs hsubmitted, h.results, h.now, ?_⟩, rfl, ?_, hfresh⟩
      · exact shows_submitted tickets rfl hboth
      · -- the fresh readers are at no ticket yet
        intro _ number ticket has hreaders hbusy
        rcases List.mem_append.mp (List.mem_of_getElem? has) with hold | hnew
        · have hle : ticket.readers ≤ loop.readers := horderly.numbered ticket hold
          have hreaders : ticket.readers = loop.readers + 1 := hreaders
          omega
        · obtain ⟨other, -, rfl⟩ := List.mem_map.mp hnew
          cases hbusy

/-- **A poll that gives up what runs leads to the next head**, once the time of a read has gone
by. -/
theorem exists_givenUp (workers : Nat) (hphase : loop.phase = .waiting) (hroomy : Roomy loop)
    (hfresh : pool.Fresh) (hended : pool.ended = []) :
    ∃ next, ComesRound workers (some patience) jobs loop (pool.steps (giveUpEvents pool)) next := by
  let late := pool.step (.pass (patience + 1))
  have hevents : pool.steps (giveUpEvents pool) =
      (late.steps (late.running.map (.abandon · patience))).steps
        (.refresh :: pool.waiting.map .requeue) := by
    unfold giveUpEvents
    rw [Pool.steps_append, Pool.steps_cons]
    rfl
  -- the loop lets the time go by
  have hpassed : Reaches workers (some patience) loop
      { loop with now := loop.now + (patience + 1) } := Reaches.step (.pass (patience + 1))
  have hfirst : Mirrors jobs late { loop with now := loop.now + (patience + 1) } :=
    ⟨h.orderly.reaches hjobs hpassed, h.results, congrArg (· + (patience + 1)) h.now,
      h.pending.imp fun number p hshows => hshows.congr rfl rfl rfl⟩
  -- it finds nothing ended, and judges
  have hroomy' : Roomy { loop with now := loop.now + (patience + 1) } := hroomy
  obtain ⟨second, hcollected, hsecond, hsecondPhase, hsettles⟩ :=
    hfirst.exists_collected hjobs workers (some patience) hphase
  have hnone : late.ended = [] := hended
  rw [hnone] at hsecond
  have hsecond : Mirrors jobs late second := hsecond
  have hroomy' := hroomy'.settled hsettles fun number hnumber => (List.mem_filter.mp hnumber).2
  obtain ⟨third, hjudged, hthird, hthirdPhase, hsettles'⟩ :=
    hsecond.exists_judged hjobs workers patience hsecondPhase
  have hreaches := hpassed.trans (hcollected.trans hjudged)
  have hcalledOff := hsettles'.calledOff.trans hsettles.calledOff
  have hlate : ∀ p ∈ late.pending, p.stage.isLate patience late.now = p.stage.isRunning := by
    intro p hp
    cases hstage : p.stage with
    | running since =>
        have hsince : since = pool.now := hfresh p hp since hstage
        refine decide_eq_true ?_
        show patience < pool.now + (patience + 1) - since
        omega
    | _ => rfl
  have hboth : List.Forall₂ (Shows third) (third.pending.filter (third.late patience third.now))
      (late.pending.filter (·.stage.isRunning)) := by
    refine forall₂_filter_of_mem hthird.pending fun number _ p hp hshows => ?_
    rw [hthird.late_eq hjobs hshows, hthird.now]
    exact hlate p hp
  suffices hcomes : ∃ next, ComesRound workers (some patience) jobs third
      (late.steps (late.running.map (.abandon · patience))) next by
    obtain ⟨next, hnext⟩ := hcomes
    rw [hevents]
    exact ⟨next, (hnext.requeued _).after hreaches hcalledOff⟩
  cases hstalled : third.pending.filter (third.late patience third.now) with
  | nil =>
      have hproceed : third.proceed (some patience) [] = { third with phase := .head } := by
        unfold proceed
        rw [hthirdPhase, hstalled]
        rfl
      rw [hstalled, List.forall₂_nil_left_iff] at hboth
      have hfresh' : late.Fresh := by
        refine Pool.fresh_of_not_running fun p hp => ?_
        exact Bool.not_eq_true _ ▸ List.filter_eq_nil_iff.mp hboth p hp
      rw [Pool.running_eq, hboth]
      exact ⟨_, hthird.comesRound hjobs (hroomy'.settled hsettles' nofun) hfresh' hproceed⟩
  | cons number rest =>
      have hproceed : third.proceed (some patience) [] =
          { third with
            phase := .abandoning (third.pending.filter (third.late patience third.now)) } := by
        unfold proceed
        rw [hthirdPhase, hstalled]
        rfl
      have hturned : Reaches workers (some patience) third _ := Reaches.proceed hproceed
      have hfourth := hthird.turn hjobs hturned
      have hlate' : ∀ p ∈ late.pending,
          p.stage.isLate patience third.now = p.stage.isRunning := by
        rw [hthird.now]
        exact hlate
      obtain ⟨fifth, hgivenUp, hfifth, hfifthPhase, hcalled⟩ :=
        hfourth.exists_abandoned hjobs workers (some patience) hlate' rfl
      obtain ⟨next, hnext⟩ := hfifth.exists_moved hjobs workers (some patience)
        (fun p hp => Pool.waits_of_mem_abandoned (hthird.nodup_unsettled hjobs) hnone hlate hp)
        hfifthPhase
      exact ⟨next, hnext.after (hturned.trans hgivenUp) hcalled⟩

end GivingUp

end Mirrors

end Loop

end SourceAtlas.Reading
