/-
# SourceAtlas.Proofs.Reading.Progress — what one round without a signal does.

Before each round every read waits or will never end (`Resting`).  The readers of a round take up
files and let every read end that can; what then runs will never end.  If some read has ended, the
poll takes it in; if none has, some read runs, and the poll gives it up.  Either way the pool gets
smaller and is at rest again, and every event on the way has told the truth
(`exists_next_of_poll?`).
-/
import SourceAtlas.Proofs.Reading.Pool
import SourceAtlas.Proofs.Signal

namespace SourceAtlas.Reading

open Signal

variable {jobs : List Job} {pool : Pool} {path : String}

/-! ## Reads that have begun -/

namespace Pool

/-- The read of a file has begun and is not settled. -/
def Begun (pool : Pool) (path : String) : Prop :=
  ∃ p ∈ pool.pending, p.path = path ∧ p.stage ≠ .waiting

/-- A read that has begun has begun for good. -/
theorem Begun.step (hdistinct : pool.unsettled.Nodup) {event : Event} (h : pool.Begun path)
    (hleft : path ∈ (pool.step event).unsettled) : (pool.step event).Begun path := by
  obtain ⟨p, hp, rfl, hstage⟩ := h
  obtain ⟨q, hq, hpath⟩ := mem_unsettled.mp hleft
  refine ⟨q, hq, hpath, ?_⟩
  rcases (moves_step pool event).stage_of_mem hq with ⟨p', hp', hpath', hstage'⟩ | ⟨-, hq'⟩ |
    ⟨found, -, hq'⟩
  · have hsame : p' = p := List.inj_on_of_nodup_map hdistinct hp' hp (hpath'.trans hpath)
    rw [← hstage', hsame]
    exact hstage
  · rw [hq']
    exact Stage.noConfusion
  · rw [hq']
    exact Stage.noConfusion

theorem Begun.steps {events : List Event} (hdistinct : pool.unsettled.Nodup)
    (h : pool.Begun path) (hleft : path ∈ (pool.steps events).unsettled) :
    (pool.steps events).Begun path := by
  induction events generalizing pool with
  | nil => exact h
  | cons event rest ih =>
      have hnext := (unsettled_steps_sublist rest (pool.step event)).subset hleft
      exact ih (nodup_step event hdistinct) (h.step hdistinct hnext)
        hleft

/-- A reader that takes up a file has begun to read it. -/
theorem begun_start (hdistinct : pool.unsettled.Nodup) (hpath : path ∈ pool.unsettled) :
    (pool.step (.start path)).Begun path := by
  obtain ⟨p, hp, rfl⟩ := mem_unsettled.mp hpath
  have hstage := stage?_of_mem hdistinct hp
  cases hwaits : p.stage with
  | waiting =>
      rw [hwaits] at hstage
      simp only [step, hstage]
      refine ⟨{ p with stage := .running pool.now }, ?_, rfl, Stage.noConfusion⟩
      exact mem_setStage.mpr (Or.inl ⟨p, hp, rfl, rfl⟩)
  | running since =>
      rw [hwaits] at hstage
      simp only [step, hstage]
      exact ⟨p, hp, rfl, fun h => Stage.noConfusion (hwaits.symm.trans h)⟩
  | ended found =>
      rw [hwaits] at hstage
      simp only [step, hstage]
      exact ⟨p, hp, rfl, fun h => Stage.noConfusion (hwaits.symm.trans h)⟩

theorem begun_of_start_mem {events : List Event} (hdistinct : pool.unsettled.Nodup)
    (hstart : Event.start path ∈ events) (hleft : path ∈ (pool.steps events).unsettled) :
    (pool.steps events).Begun path := by
  induction events generalizing pool with
  | nil => cases hstart
  | cons event rest ih =>
      have hdistinct' := nodup_step event hdistinct
      rcases List.mem_cons.mp hstart with rfl | hstart
      · have hnow := (unsettled_steps_sublist (.start path :: rest) pool).subset hleft
        rw [steps_cons] at hleft ⊢
        exact (begun_start hdistinct hnow).steps hdistinct' hleft
      · exact ih hdistinct' hstart hleft

/-- A read that has just ended does not run. -/
theorem not_running_finish (hdistinct : pool.unsettled.Nodup) {found : Option NameSet}
    {q : Pending} (hq : q ∈ (pool.step (.finish path found)).pending) (hpath : q.path = path)
    (since : Nat) : q.stage ≠ .running since := by
  intro hruns
  by_cases hfits : ∃ since, pool.stage? path = some (.running since)
  · obtain ⟨since', hstage⟩ := hfits
    simp only [step, hstage] at hq
    rcases mem_setStage.mp hq with ⟨p, -, -, rfl⟩ | ⟨-, hne⟩
    · cases hruns
    · exact hne hpath
  · -- the event changes nothing, so the read would have run before
    rcases (moves_step pool (.finish path found)).stage_of_mem hq with ⟨p, hp, hp', hstage⟩ |
      ⟨hevent, -⟩ | ⟨found', -, hstage⟩
    · refine hfits ⟨since, ?_⟩
      rw [← hpath, ← hp', stage?_of_mem hdistinct hp, hstage, hruns]
    · cases hevent
    · rw [hruns] at hstage
      cases hstage

end Pool

/-! ## Readers -/

/-- Reading a file never ends. -/
def NeverEnds (jobs : List Job) (path : String) : Prop :=
  ∃ job ∈ jobs, job.path = path ∧ job.outcome.specifiers? job.language = none

/-- Only a read that hangs finds nothing at all. -/
theorem Job.never_of_specifiers? {job : Job} (h : job.outcome.specifiers? job.language = none) :
    job.outcome = .never := by
  cases houtcome : job.outcome with
  | never => rfl
  | text content =>
      rw [houtcome] at h
      cases h
  | failed =>
      rw [houtcome] at h
      cases h

/-- Every read that runs will never end. -/
def Stuck (jobs : List Job) (pool : Pool) : Prop :=
  ∀ p ∈ pool.pending, ∀ since, p.stage = .running since → NeverEnds jobs p.path

/-- No read has ended. -/
def NoneEnded (pool : Pool) : Prop :=
  ∀ p ∈ pool.pending, ∀ found, p.stage ≠ .ended found

/-- The events of one reader when there is no signal. -/
def readerEvents (job : Job) : List Event :=
  .start job.path ::
    (((job.outcome.specifiers? job.language).map some).map (.finish job.path)).toList

/-- The events of all readers are those of each, one after another. -/
theorem readEvents_never (taken : List Job) :
    (readEvents taken never).1 = taken.flatMap readerEvents := by
  induction taken with
  | nil => rfl
  | cons job rest ih =>
      rw [List.flatMap_cons, ← ih]
      rfl

/-- A reader tells the truth. -/
theorem fits_readerEvents {job : Job} (hjob : job ∈ jobs) :
    ∀ event ∈ readerEvents job, event.Fits jobs := by
  intro event hevent
  rcases List.mem_cons.mp hevent with rfl | hevent
  · trivial
  · cases hfound : job.outcome.specifiers? job.language with
    | none =>
        rw [hfound] at hevent
        cases hevent
    | some found =>
        rw [hfound] at hevent
        rw [List.mem_singleton.mp hevent]
        refine ⟨job, hjob, rfl, ?_⟩
        unfold Job.found
        rw [hfound]
        rfl

/-- A reader settles nothing. -/
theorem unsettled_readerEvents (job : Job) (pool : Pool) :
    (pool.steps (readerEvents job)).unsettled = pool.unsettled := by
  have hstart : (pool.step (.start job.path)).unsettled = pool.unsettled := by
    simp only [Pool.step]
    split
    · exact Pool.unsettled_setStage
    · rfl
  have hfinish : ∀ (pool : Pool) found,
      (pool.step (.finish job.path found)).unsettled = pool.unsettled := by
    intro pool found
    simp only [Pool.step]
    split
    · exact Pool.unsettled_setStage
    · rfl
  unfold readerEvents
  cases job.outcome.specifiers? job.language with
  | none => exact hstart
  | some found => exact (hfinish (pool.step (.start job.path)) (some found)).trans hstart

/-- After a start only the read that has started may run without being stuck. -/
theorem Stuck.start (h : Stuck jobs pool) {q : Pending}
    (hq : q ∈ (pool.step (.start path)).pending) {since : Nat} (hruns : q.stage = .running since) :
    q.path = path ∨ NeverEnds jobs q.path := by
  rcases (Pool.moves_step pool (.start path)).stage_of_mem hq with ⟨p, hp, hpath, hstage⟩ |
    ⟨hevent, -⟩ | ⟨found, hevent, -⟩
  · rw [← hpath]
    exact Or.inr (h p hp since (hstage.trans hruns))
  · exact Or.inl (Event.start.inj hevent).symm
  · cases hevent

/-- A reader lets its read end if it can. -/
theorem Stuck.readerEvents (h : Stuck jobs pool) (hdistinct : pool.unsettled.Nodup) {job : Job}
    (hjob : job ∈ jobs) : Stuck jobs (pool.steps (readerEvents job)) := by
  unfold Reading.readerEvents
  intro q hq since hruns
  cases hends : job.outcome.specifiers? job.language with
  | none =>
      rw [hends] at hq
      rcases h.start hq hruns with hpath | hnever
      · exact ⟨job, hjob, hpath.symm, hends⟩
      · exact hnever
  | some found =>
      rw [hends] at hq
      have hdistinct' := Pool.nodup_step (.start job.path) hdistinct
      have hfinish := Pool.moves_step (pool.step (.start job.path)) (.finish job.path (some found))
      rcases hfinish.stage_of_mem hq with ⟨p, hp, hpath, hstage⟩ | ⟨hevent, -⟩ | ⟨_, -, hstage⟩
      · -- the job's own read has ended, so it cannot be the one that runs
        rcases h.start hp (hstage.trans hruns) with hpath' | hnever
        · exact absurd hruns (Pool.not_running_finish hdistinct' hq (hpath.symm.trans hpath') since)
        · exact hpath ▸ hnever
      · cases hevent
      · rw [hruns] at hstage
        cases hstage

/-- Readers settle nothing. -/
theorem unsettled_readEvents (taken : List Job) (pool : Pool) :
    (pool.steps (readEvents taken never).1).unsettled = pool.unsettled := by
  rw [readEvents_never]
  induction taken generalizing pool with
  | nil => rfl
  | cons job rest ih => rw [List.flatMap_cons, Pool.steps_append, ih, unsettled_readerEvents]

/-- Readers let every read end that can. -/
theorem Stuck.readEvents {taken : List Job} (h : Stuck jobs pool)
    (hdistinct : pool.unsettled.Nodup) (htaken : ∀ job ∈ taken, job ∈ jobs) :
    Stuck jobs (pool.steps (readEvents taken never).1) := by
  rw [readEvents_never]
  induction taken generalizing pool with
  | nil => exact h
  | cons job rest ih =>
      rw [List.flatMap_cons, Pool.steps_append]
      refine ih (h.readerEvents hdistinct (htaken job List.mem_cons_self)) ?_
        fun job' hjob' => htaken job' (List.mem_cons_of_mem job hjob')
      rw [unsettled_readerEvents]
      exact hdistinct

/-- Before a round every read waits or will never end. -/
structure Resting (jobs : List Job) (pool : Pool) : Prop where
  stuck : Stuck jobs pool
  noneEnded : NoneEnded pool

variable {workers : Nat}

/-- **A round begins some read**, unless no read is left. -/
theorem exists_begun_readEvents (hworkers : 1 ≤ workers) (h : Sound jobs pool)
    (hjobs : (jobs.map (·.path)).Nodup) (hrest : Resting jobs pool) (hne : pool.pending ≠ []) :
    ∃ path, (pool.steps (readEvents (nextJobs jobs workers pool) never).1).Begun path := by
  have hdistinct := h.distinct hjobs
  by_cases hruns : ∃ p ∈ pool.pending, ∃ since, p.stage = .running since
  · -- what runs has begun before
    obtain ⟨p, hp, since, hstage⟩ := hruns
    have hbegun : pool.Begun p.path := by
      refine ⟨p, hp, rfl, ?_⟩
      rw [hstage]
      exact Stage.noConfusion
    refine ⟨p.path, hbegun.steps hdistinct ?_⟩
    rw [unsettled_readEvents]
    exact Pool.mem_unsettled.mpr ⟨p, hp, rfl⟩
  · -- all readers are free, so that the first file that waits is taken up
    have hwaits : ∀ p ∈ pool.pending, p.stage = .waiting := by
      intro p hp
      cases hstage : p.stage with
      | waiting => rfl
      | running since => exact absurd ⟨p, hp, since, hstage⟩ hruns
      | ended found => exact absurd hstage (hrest.noneEnded p hp found)
    have hfree : pool.running = [] := by
      unfold Pool.running
      rw [List.filterMap_eq_nil_iff]
      intro p hp
      rw [hwaits p hp]
    obtain ⟨p, rest, hpending⟩ := List.exists_cons_of_ne_nil hne
    have hp : p ∈ pool.pending := hpending ▸ List.mem_cons_self
    have hwaiting : pool.waiting = p.path :: Pool.waiting { pool with pending := rest } := by
      unfold Pool.waiting
      rw [hpending, List.filterMap_cons, hwaits p hp]
    have hunsettled : p.path ∈ pool.unsettled := Pool.mem_unsettled.mpr ⟨p, hp, rfl⟩
    have hknown : p.path ∈ jobs.map (·.path) :=
      h.accounted.subset (List.mem_append_left _ hunsettled)
    obtain ⟨job, hjob, hpath⟩ := List.mem_map.mp hknown
    have htaken : job ∈ nextJobs jobs workers pool := by
      unfold nextJobs
      rw [List.mem_filter, hfree, hwaiting, List.length_nil, Nat.sub_zero, hpath]
      refine ⟨hjob, ?_⟩
      obtain ⟨more, hmore⟩ : ∃ more, workers = more + 1 := ⟨workers - 1, by omega⟩
      rw [hmore, List.take_succ_cons, List.contains_cons, beq_self_eq_true]
      rfl
    have hstart : .start job.path ∈ (readEvents (nextJobs jobs workers pool) never).1 := by
      rw [readEvents_never]
      exact List.mem_flatMap.mpr ⟨job, htaken, List.mem_cons_self⟩
    refine ⟨job.path, Pool.begun_of_start_mem hdistinct hstart ?_⟩
    rw [unsettled_readEvents, hpath]
    exact hunsettled

/-! ## Polls -/

/-- A pool that has lost a file is smaller. -/
theorem length_pending_lt {next : Pool} (hsub : next.unsettled.Sublist pool.unsettled)
    (hpath : path ∈ pool.unsettled) (hlost : path ∉ next.unsettled) :
    next.pending.length < pool.pending.length := by
  have hle := hsub.length_le
  unfold Pool.unsettled at hle
  rw [List.length_map, List.length_map] at hle
  refine Nat.lt_of_le_of_ne hle fun heq => hlost ?_
  have hsame : next.unsettled = pool.unsettled := by
    apply hsub.eq_of_length
    unfold Pool.unsettled
    rw [List.length_map, List.length_map, heq]
  rw [hsame]
  exact hpath

/-- Quiet events start nothing, so what runs is as stuck as before. -/
theorem Stuck.steps {events : List Event} (h : Stuck jobs pool)
    (hquiet : ∀ event ∈ events, event.Quiet) : Stuck jobs (pool.steps events) := by
  intro q hq since hruns
  obtain ⟨p, hp, hpath, hstage⟩ := Pool.stage_of_mem_steps hquiet hq
  rw [← hpath]
  exact h p hp since (hstage.trans hruns)

/-- Taking in what has ended leaves a smaller pool without ended reads. -/
theorem collect_ended (hdistinct : pool.unsettled.Nodup) (hstuck : Stuck jobs pool)
    (hended : pool.ended ≠ []) :
    Resting jobs (pool.steps (pool.ended.map .collect)) ∧
      (pool.steps (pool.ended.map .collect)).pending.length < pool.pending.length := by
  have hquiet : ∀ event ∈ pool.ended.map Event.collect, event.Quiet := by
    intro event hevent
    obtain ⟨path, -, rfl⟩ := List.mem_map.mp hevent
    trivial
  have hlost : ∀ path ∈ pool.ended,
      path ∉ (pool.steps (pool.ended.map .collect)).unsettled :=
    fun path hpath => Pool.not_mem_unsettled_collectAll hdistinct hpath
  refine ⟨⟨hstuck.steps hquiet, ?_⟩, ?_⟩
  · intro q hq found hfound
    obtain ⟨p, hp, hpath, hstage⟩ := Pool.stage_of_mem_steps hquiet hq
    refine hlost p.path (Pool.mem_ended hp (hstage.trans hfound)) ?_
    rw [hpath]
    exact Pool.mem_unsettled.mpr ⟨q, hq, rfl⟩
  · obtain ⟨path, hpath⟩ := List.exists_mem_of_ne_nil _ hended
    obtain ⟨p, hp, rfl, found, hstage⟩ := Pool.exists_of_mem_ended hpath
    exact length_pending_lt (Pool.unsettled_steps_sublist _ pool)
      (Pool.mem_unsettled.mpr ⟨p, hp, rfl⟩) (hlost p.path hpath)

/-- A poll that gives up what will never end starts nothing and loses nothing. -/
theorem of_mem_giveUpEvents (hstuck : Stuck jobs pool) {event : Event}
    (hevent : event ∈ giveUpEvents pool) : event.Quiet ∧ event.Fits jobs := by
  unfold giveUpEvents at hevent
  rcases List.mem_append.mp hevent with hevent | hevent
  · rcases List.mem_cons.mp hevent with rfl | hevent
    · exact ⟨trivial, trivial⟩
    · obtain ⟨path, hpath, rfl⟩ := List.mem_map.mp hevent
      obtain ⟨p, hp, rfl, since, hstage⟩ := Pool.exists_of_mem_running hpath
      obtain ⟨job, hjob, hjobPath, hnever⟩ := hstuck p hp since hstage
      refine ⟨trivial, job, hjob, hjobPath, ?_⟩
      unfold Job.found
      rw [hnever]
      rfl
  · rcases List.mem_cons.mp hevent with rfl | hevent
    · exact ⟨trivial, trivial⟩
    · obtain ⟨path, -, rfl⟩ := List.mem_map.mp hevent
      exact ⟨trivial, trivial⟩

/-- Giving up what will never end leaves a smaller pool. -/
theorem giveUp_running (h : Sound jobs pool) (hjobs : (jobs.map (·.path)).Nodup)
    (hrest : Resting jobs pool) (hruns : pool.running ≠ []) :
    Resting jobs (pool.steps (giveUpEvents pool)) ∧
      (pool.steps (giveUpEvents pool)).pending.length < pool.pending.length := by
  have hquiet : ∀ event ∈ giveUpEvents pool, event.Quiet :=
    fun event hevent => (of_mem_giveUpEvents hrest.stuck hevent).1
  refine ⟨⟨hrest.stuck.steps hquiet, ?_⟩, ?_⟩
  · intro q hq found hfound
    obtain ⟨p, hp, -, hstage⟩ := Pool.stage_of_mem_steps hquiet hq
    exact hrest.noneEnded p hp found (hstage.trans hfound)
  · obtain ⟨path, hpath⟩ := List.exists_mem_of_ne_nil _ hruns
    obtain ⟨p, hp, rfl, since, hstage⟩ := Pool.exists_of_mem_running hpath
    -- the time that passes is more than the read may take
    let late := pool.step (.pass (patience + 1))
    have hlate : since + patience < late.now := by
      have hbegun := h.begun p hp since hstage
      show since + patience < pool.now + (patience + 1)
      omega
    have hdistinct : late.unsettled.Nodup := h.distinct hjobs
    have hmem : p ∈ late.pending := hp
    have hlost := Pool.not_mem_unsettled_abandonAll hdistinct hmem hstage hlate hpath
    refine length_pending_lt (Pool.unsettled_steps_sublist _ pool)
      (Pool.mem_unsettled.mpr ⟨p, hp, rfl⟩) fun hleft => hlost ?_
    unfold giveUpEvents at hleft
    rw [Pool.steps_append] at hleft
    exact (Pool.unsettled_steps_sublist _ _).subset hleft

/-- **A round without a signal leaves a smaller pool, by events that tell the truth.**  A poll can
always go on: reads that never end are given up after their time, if there are any. -/
theorem exists_next_of_poll? {limited : Bool} (hworkers : 1 ≤ workers) (h : Sound jobs pool)
    (hjobs : (jobs.map (·.path)).Nodup)
    (hends : limited = true ∨ ∀ job ∈ jobs, job.outcome ≠ .never) (hrest : Resting jobs pool)
    (hne : pool.pending ≠ []) :
    ∃ events, (∀ event ∈ events, event.Fits jobs) ∧
      poll? limited (pool.steps (readEvents (nextJobs jobs workers pool) never).1) never =
        some (pool.steps events) ∧
      Resting jobs (pool.steps events) ∧
      (pool.steps events).pending.length < pool.pending.length := by
  obtain ⟨path, hbegun⟩ := exists_begun_readEvents hworkers h hjobs hrest hne
  have htaken : ∀ job ∈ nextJobs jobs workers pool, job ∈ jobs :=
    fun job hjob => (List.mem_filter.mp hjob).1
  have hfits : ∀ event ∈ (readEvents (nextJobs jobs workers pool) never).1, event.Fits jobs := by
    intro event hevent
    rw [readEvents_never] at hevent
    obtain ⟨job, hjob, hevent⟩ := List.mem_flatMap.mp hevent
    exact fits_readerEvents (htaken job hjob) event hevent
  have hsound := h.steps hjobs hfits
  have hstuck := hrest.stuck.readEvents (h.distinct hjobs) htaken
  have hsame := unsettled_readEvents (nextJobs jobs workers pool) pool
  generalize (readEvents (nextJobs jobs workers pool) never).1 = events at *
  have hlength : (pool.steps events).pending.length = pool.pending.length := by
    have hlength := congrArg List.length hsame
    unfold Pool.unsettled at hlength
    rwa [List.length_map, List.length_map] at hlength
  rw [← hlength]
  unfold poll?
  by_cases hended : (pool.steps events).ended = []
  · have hnone : NoneEnded (pool.steps events) := by
      intro p hp found hfound
      have hmem := Pool.mem_ended hp hfound
      rw [hended] at hmem
      cases hmem
    -- some read has begun, and as it has not ended it runs and never ends
    obtain ⟨p, hp, since, hstage⟩ :
        ∃ p ∈ (pool.steps events).pending, ∃ since, p.stage = .running since := by
      obtain ⟨p, hp, -, hstage⟩ := hbegun
      cases hp' : p.stage with
      | waiting => exact absurd hp' hstage
      | running since => exact ⟨p, hp, since, hp'⟩
      | ended found => exact absurd hp' (hnone p hp found)
    have hlimited : limited = true := by
      refine hends.resolve_right fun hall => ?_
      obtain ⟨job, hjob, -, hnever⟩ := hstuck p hp since hstage
      exact hall job hjob (Job.never_of_specifiers? hnever)
    obtain ⟨hrest', hlt⟩ := giveUp_running hsound hjobs ⟨hstuck, hnone⟩
      (List.ne_nil_of_mem (Pool.mem_running hp hstage))
    refine ⟨events ++ giveUpEvents (pool.steps events), ?_, ?_, ?_⟩
    · intro event hevent
      rcases List.mem_append.mp hevent with hevent | hevent
      · exact hfits event hevent
      · exact (of_mem_giveUpEvents hstuck hevent).2
    · rw [hended, hlimited, Pool.steps_append]
      rfl
    · rw [Pool.steps_append]
      exact ⟨hrest', hlt⟩
  · have hsome : (!(pool.steps events).ended.isEmpty) = true := by
      rw [List.isEmpty_eq_false_iff.mpr hended]
      rfl
    refine ⟨events ++ (pool.steps events).ended.map .collect, ?_, ?_, ?_⟩
    · intro event hevent
      rcases List.mem_append.mp hevent with hevent | hevent
      · exact hfits event hevent
      · obtain ⟨path, -, rfl⟩ := List.mem_map.mp hevent
        trivial
    · rw [if_pos hsome, Pool.steps_append]
    · rw [Pool.steps_append]
      exact collect_ended (hsound.distinct hjobs) hstuck hended

end SourceAtlas.Reading
