/-
# SourceAtlas.Proofs.Reading.Scheduled — the schedule is a run of the loop.

The schedule by which files are read goes through a pool in rounds.  A loop that mirrors the pool at
the head of a round can go along with it: its readers have room for the files that the readers of
the round take up (`Mirrors.busy_le`, `length_nextJobs_le`), and its poll does what the poll of the
round does (`AtHead.exists_rounds`).  So whatever the schedule finds, some run of the loop finds
(`exists_run_readAll`), and what holds of runs holds of the schedule, whatever the signal
(`readAll_sound`).
-/
import SourceAtlas.Proofs.Reading.GivenUp
import SourceAtlas.Proofs.Reading.Rounds

namespace SourceAtlas.Reading

variable {jobs : List Job} {workers : Nat} {pool : Pool}

/-! ## The files of a round -/

theorem Pool.exists_of_mem_waiting {path : String} (h : path ∈ pool.waiting) :
    ∃ p ∈ pool.pending, p.path = path ∧ p.stage = .waiting := by
  unfold Pool.waiting at h
  obtain ⟨p, hp, hpath⟩ := List.mem_filterMap.mp h
  cases hstage : p.stage with
  | waiting =>
      rw [hstage] at hpath
      exact ⟨p, hp, Option.some.inj hpath, hstage⟩
  | _ =>
      rw [hstage] at hpath
      cases hpath

theorem nextJobs_sublist (jobs : List Job) (workers : Nat) (pool : Pool) :
    (nextJobs jobs workers pool).Sublist jobs :=
  List.filter_sublist

/-- A round takes up no more files than there are readers free. -/
theorem length_nextJobs_le (hjobs : (jobs.map (·.path)).Nodup) :
    (nextJobs jobs workers pool).length ≤ workers - pool.running.length := by
  have hsub : (nextJobs jobs workers pool).map (·.path) ⊆
      pool.waiting.take (workers - pool.running.length) := by
    intro path hpath
    obtain ⟨job, hjob, rfl⟩ := List.mem_map.mp hpath
    exact List.contains_iff_mem.mp (List.mem_filter.mp hjob).2
  have hdistinct := ((nextJobs_sublist jobs workers pool).map (·.path)).nodup hjobs
  have hle := (List.subperm_of_subset hdistinct hsub).length_le
  rw [List.length_map] at hle
  exact Nat.le_trans hle (List.length_take_le _ _)

/-- A round takes up files that wait. -/
theorem stage?_of_mem_nextJobs (hdistinct : pool.unsettled.Nodup) {job : Job}
    (hjob : job ∈ nextJobs jobs workers pool) : pool.stage? job.path = some .waiting := by
  have hmem := List.mem_of_mem_take (List.contains_iff_mem.mp (List.mem_filter.mp hjob).2)
  obtain ⟨p, hp, hpath, hwaits⟩ := Pool.exists_of_mem_waiting hmem
  rw [← hpath, Pool.stage?_of_mem hdistinct hp, hwaits]

/-- No time goes by while readers take up files. -/
theorem instant_of_mem_readEvents (taken : List Job) (signal : Signal) :
    ∀ event ∈ (readEvents taken signal).1, event.Instant := by
  induction taken generalizing signal with
  | nil => exact nofun
  | cons job rest ih =>
      have hcons : (readEvents (job :: rest) signal).1 = .start job.path ::
          (((job.takeUp signal).1.map (.finish job.path)).toList ++
            (readEvents rest (job.takeUp signal).2).1) := rfl
      intro event hevent
      rw [hcons] at hevent
      rcases List.mem_cons.mp hevent with rfl | hevent
      · trivial
      · rcases List.mem_append.mp hevent with hevent | hevent
        · obtain ⟨found, -, rfl⟩ := Option.map_eq_some_iff.mp (Option.mem_toList.mp hevent)
          trivial
        · exact ih _ event hevent

namespace Loop

variable {limit : Option Nat} {loop next : Loop}

/-! ## Room for readers -/

/-- **The latest readers are at no more tickets than reads run.** -/
theorem Mirrors.busy_le (h : Mirrors jobs pool loop) (hroomy : Roomy loop)
    (hne : loop.pending ≠ []) : loop.busy loop.readers ≤ pool.running.length := by
  let atWork (ticket : Ticket) : Bool := ticket.readers == loop.readers && ticket.stage.busy
  let runs (number : Nat) : Bool := (loop.tickets[number]?.map (·.stage.busy)).getD false
  let numbers := (loop.tickets.zipIdx.filter fun t => atWork t.1).map (·.2)
  have hbusy : loop.busy loop.readers = numbers.length := by
    show loop.tickets.countP atWork = _
    rw [List.length_map, ← List.countP_eq_length_filter, ← List.zipIdx_map_fst 0 loop.tickets,
      List.countP_map, List.zipIdx_map_fst]
    rfl
  have hdistinct : numbers.Nodup := by
    refine (List.filter_sublist.map _).nodup ?_
    rw [List.zipIdx_map_snd]
    exact List.nodup_range'
  -- they are at pending tickets, and the reads of these run
  have hsub : numbers ⊆ loop.pending.filter runs := by
    intro number hnumber
    obtain ⟨⟨ticket, _⟩, hticket, rfl⟩ := List.mem_map.mp hnumber
    obtain ⟨hticket, hwork⟩ := List.mem_filter.mp hticket
    have has := List.mem_zipIdx_iff_getElem?.mp hticket
    obtain ⟨hreaders, hbusy⟩ := Bool.and_eq_true_iff.mp hwork
    refine List.mem_filter.mpr ⟨hroomy hne _ ticket has (eq_of_beq hreaders) hbusy, ?_⟩
    show (Option.map _ _).getD false = true
    rw [has]
    exact hbusy
  have hboth : List.Forall₂ (Shows loop) (loop.pending.filter runs)
      (pool.pending.filter (·.stage.isRunning)) := by
    refine forall₂_filter_of_mem h.pending fun number _ p _ hshows => ?_
    obtain ⟨ticket, has, -, -, hstands⟩ := hshows
    show (Option.map _ _).getD false = _
    rw [has]
    show ticket.stage.busy = _
    rw [hstands.stage_eq]
    cases p.stage with
    | _ => rfl
  have hruns : pool.running.length = (pool.pending.filter (·.stage.isRunning)).length := by
    rw [Pool.running_eq, List.length_map]
  rw [hbusy, hruns, ← hboth.length_eq]
  exact (List.subperm_of_subset hdistinct hsub).length_le

/-! ## Rounds -/

/-- **The loop comes round wherever the poll lets the rounds go on.** -/
theorem Mirrors.exists_comesRound (h : Mirrors jobs pool loop) (hjobs : (jobs.map (·.path)).Nodup)
    (workers : Nat) (hphase : loop.phase = .waiting) (hroomy : Roomy loop) (hfresh : pool.Fresh)
    {limited : Bool} {signal : Signal} {polled : Pool}
    (hpoll : poll? limited pool signal = some polled) :
    ∃ next, ComesRound workers (limitOf limited) jobs loop polled next := by
  unfold poll? at hpoll
  by_cases hended : pool.ended = []
  · rw [hended] at hpoll
    cases limited with
    | false =>
        rw [Bool.not_false, Bool.or_true] at hpoll
        cases hpoll
    | true =>
        cases hset : signal.isSet with
        | true =>
            rw [hset] at hpoll
            cases hpoll
        | false =>
            rw [hset] at hpoll
            rw [← Option.some.inj hpoll]
            exact h.exists_givenUp hjobs workers hphase hroomy hfresh hended
  · rw [if_pos (by rw [List.isEmpty_eq_false_iff.mpr hended]; rfl)] at hpoll
    rw [← Option.some.inj hpoll]
    exact h.exists_polled hjobs limited hphase hroomy hfresh

namespace AtHead

variable (h : AtHead jobs pool loop) (hjobs : (jobs.map (·.path)).Nodup)
include h

theorem pending_ne_nil (hne : pool.pending ≠ []) : loop.pending ≠ [] := by
  intro hnil
  have hpending := h.mirrors.pending
  rw [hnil, List.forall₂_nil_left_iff] at hpending
  exact hne hpending

include hjobs

/-- The loop waits while its readers do what the readers of the round do. -/
theorem exists_read (workers : Nat) (limit : Option Nat) (signal : Signal)
    (hne : pool.pending ≠ []) (hoff : loop.calledOff = false) :
    ∃ next, Reaches workers limit loop next ∧
      Mirrors jobs (pool.steps (readEvents (nextJobs jobs workers pool) signal).1) next ∧
        next.phase = .waiting ∧ Roomy next ∧
          (next.calledOff = true →
            (readEvents (nextJobs jobs workers pool) signal).2.isSet = true) := by
  have hpending := h.pending_ne_nil hne
  have hproceed : loop.proceed limit [] = { loop with phase := .waiting } := by
    unfold proceed
    rw [h.phase]
    simp only [hoff, List.isEmpty_eq_false_iff.mpr hpending]
    rfl
  have hwaits : Reaches workers limit loop _ := Reaches.proceed hproceed
  have hfirst := h.mirrors.turn hjobs hwaits
  have hroom : nextJobs jobs workers pool ≠ [] →
      loop.busy loop.readers + (nextJobs jobs workers pool).length ≤ workers := by
    intro hsome
    have hbusy := h.mirrors.busy_le h.roomy hpending
    have hnext : (nextJobs jobs workers pool).length ≤ workers - pool.running.length :=
      length_nextJobs_le hjobs
    have hlength := List.length_pos_of_ne_nil hsome
    omega
  have hreaders : ∃ next, Follows workers limit jobs { loop with phase := .waiting }
      (pool.steps (readEvents (nextJobs jobs workers pool) signal).1) _ next ∧
        (next.calledOff = true → (readEvents (nextJobs jobs workers pool) signal).2.isSet = true) :=
    Mirrors.exists_readers hjobs (nextJobs jobs workers pool) hfirst
      (fun job hjob => (nextJobs_sublist jobs workers pool).subset hjob)
      (((nextJobs_sublist jobs workers pool).map _).nodup hjobs)
      (fun job hjob => stage?_of_mem_nextJobs (h.mirrors.nodup_unsettled hjobs) hjob) hroom
      fun hcontra => by rw [show loop.calledOff = true from hcontra] at hoff; cases hoff
  obtain ⟨next, hnext, hcalled⟩ := hreaders
  exact ⟨next, hwaits.trans hnext.reaches, hnext.mirrors, hnext.beside.phase, hnext.roomy h.roomy,
    hcalled⟩

/-- **A loop at the head of a round goes along with all rounds that follow.** -/
theorem exists_rounds (workers : Nat) (limited : Bool) (fuel : Nat) {signal : Signal}
    (hcalled : loop.calledOff = true → signal.isSet = true) :
    ∃ next, Reaches workers (limitOf limited) loop next ∧
      Mirrors jobs (rounds jobs workers limited fuel pool signal).1 next := by
  induction fuel generalizing loop pool signal with
  | zero => exact ⟨loop, Reaches.refl loop, h.mirrors⟩
  | succ fuel ih =>
      by_cases hne : pool.pending = []
      · rw [rounds, if_pos (List.isEmpty_iff.mpr hne)]
        exact ⟨loop, Reaches.refl loop, h.mirrors⟩
      rw [rounds_succ hne]
      cases hset : signal.isSet with
      | true =>
          rw [(Signal.look_of_isSet hset).1]
          exact ⟨loop, Reaches.refl loop, h.mirrors⟩
      | false =>
          rw [(Signal.look_of_not_isSet hset).1]
          have hoff : loop.calledOff = false := by
            by_contra hcontra
            rw [hcalled (Bool.not_eq_false _ ▸ hcontra)] at hset
            cases hset
          obtain ⟨second, hread, hsecond, hphase, hroomy, hcalled'⟩ :=
            h.exists_read hjobs workers (limitOf limited) (signal.spend 1) hne hoff
          have hfresh := h.fresh.steps
            (instant_of_mem_readEvents (nextJobs jobs workers pool) (signal.spend 1))
          show ∃ next, Reaches workers (limitOf limited) loop next ∧
            Mirrors jobs (afterReaders jobs workers limited fuel pool
              (readEvents (nextJobs jobs workers pool) (signal.spend 1)).1
              (readEvents (nextJobs jobs workers pool) (signal.spend 1)).2).1 next
          generalize readEvents (nextJobs jobs workers pool) (signal.spend 1) = read at *
          obtain ⟨events, left⟩ := read
          unfold afterReaders
          cases hpoll : poll? limited (pool.steps events) left with
          | none => exact ⟨second, hread, hsecond⟩
          | some polled =>
              obtain ⟨third, hthird⟩ :=
                hsecond.exists_comesRound hjobs workers hphase hroomy hfresh hpoll
              have hcalled'' : third.calledOff = true → left.isSet = true := by
                rw [hthird.calledOff]
                exact hcalled'
              obtain ⟨next, hreaches, hmirrors⟩ := ih hthird.head hcalled''
              exact ⟨next, hread.trans (hthird.reaches.trans hreaches), hmirrors⟩

end AtHead

/-- The loop that has submitted all files is at its first head. -/
theorem exists_atHead (hjobs : (jobs.map (·.path)).Nodup) (workers : Nat) (limit : Option Nat) :
    ∃ next, Reaches workers limit (ofJobs jobs) next ∧ next.calledOff = false ∧
      AtHead jobs (Pool.ofPaths (jobs.map (·.path))) next := by
  have hsubmitted : Reaches workers limit (ofJobs jobs) _ := reaches_submitted jobs [] rfl
  have hboth : List.Forall₂ (fun (job : Job) (p : Pending) => job.path = p.path ∧ p.stage = .waiting)
      jobs (Pool.ofPaths (jobs.map (·.path))).pending := by
    unfold Pool.ofPaths
    rw [List.forall₂_map_right_iff, List.forall₂_map_right_iff, List.forall₂_same]
    exact fun job _ => ⟨rfl, rfl⟩
  refine ⟨_, hsubmitted, rfl,
    ⟨(orderly_ofJobs jobs).reaches hjobs hsubmitted, rfl, rfl, ?_⟩, rfl, ?_, ?_⟩
  · exact shows_submitted [] rfl hboth
  · intro _ number ticket has _ hbusy
    obtain ⟨job, -, rfl⟩ := List.mem_map.mp (List.mem_of_getElem? has)
    cases hbusy
  · refine Pool.fresh_of_not_running fun p hp => ?_
    obtain ⟨path, -, rfl⟩ := List.mem_map.mp hp
    rfl

/-- **What the schedule finds, some run of the loop finds.** -/
theorem exists_run_readAll (hjobs : (jobs.map (·.path)).Nodup) (workers : Nat) (timeout : Float)
    (signal : Signal) :
    ∃ events, ((ofJobs jobs).run workers (limitOf (limits timeout)) events).results =
      (readAll jobs workers timeout signal).1 := by
  obtain ⟨first, hsubmitted, hoff, hhead⟩ :=
    exists_atHead hjobs workers (limitOf (limits timeout))
  have hcalled : first.calledOff = true → signal.isSet = true := by
    intro hcontra
    rw [hcontra] at hoff
    cases hoff
  obtain ⟨last, hrounds, hlast⟩ :=
    hhead.exists_rounds hjobs workers (limits timeout) (jobs.length + 1) hcalled
  obtain ⟨events, hrun⟩ := hsubmitted.trans hrounds
  refine ⟨events, ?_⟩
  rw [hrun]
  exact hlast.results

/-- **Under any signal and any limit, the schedule finds nothing twice and nothing wrong**: what it
has of a file is what the file's read finds, or nothing where the read was given up. -/
theorem readAll_sound (hjobs : (jobs.map (·.path)).Nodup) (workers : Nat) (timeout : Float)
    (signal : Signal) :
    ((readAll jobs workers timeout signal).1.map (·.1)).Nodup ∧
      ∀ result ∈ (readAll jobs workers timeout signal).1, ∃ job ∈ jobs, job.path = result.1 ∧
        (result.2 = OrderedSet.empty ∨ job.outcome.specifiers? job.language = some result.2) := by
  obtain ⟨events, hrun⟩ := exists_run_readAll hjobs workers timeout signal
  have h := (orderly_ofJobs jobs).run hjobs workers (limitOf (limits timeout)) events
  rw [← hrun]
  refine ⟨(List.nodup_append.mp (h.placed.nodup_iff.mpr hjobs)).1, fun result hresult => ?_⟩
  have hpath := h.placed.subset (List.mem_append_left _ (List.mem_map_of_mem hresult))
  obtain ⟨job, hjob, hpath⟩ := List.mem_map.mp hpath
  refine ⟨job, hjob, hpath, ?_⟩
  rcases h.told result hresult with ⟨-, hempty⟩ | ⟨-, ticket, hticket, hof, hstage⟩
  · exact Or.inl hempty
  · -- the ticket is of this very file
    have hsame : ticket.job = job :=
      List.inj_on_of_nodup_map hjobs (h.known ticket hticket) hjob (hof.trans hpath.symm)
    rcases h.ended ticket hticket _ hstage with ⟨hnone, -⟩ | ⟨-, hfound⟩
    · cases hnone
    · rw [← hsame]
      exact Or.inr hfound

end Loop

end SourceAtlas.Reading
