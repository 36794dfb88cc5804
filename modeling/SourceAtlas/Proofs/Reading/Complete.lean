/-
# SourceAtlas.Proofs.Reading.Complete — reading comes to an end and finds everything.

Every round makes the pool smaller, so that a round for each job is enough to settle all reads
(`reads_readAll_never`).  However the reads come about, once all are settled every job has exactly
what it finds: reads that fail or hang keep nothing from the others (`Reads.of_jobs`), and each
tracked file gets what its own text imports (`Reads.of_jobsOf`).
-/
import SourceAtlas.Proofs.Reading.Progress
import SourceAtlas.Proofs.Reading.Rounds

namespace SourceAtlas.Reading

open Signal

variable {jobs : List Job} {pool : Pool} {workers : Nat}

/-! ## All rounds -/

/-- **Rounds without a signal settle every read**, if there is one for each read that is left. -/
theorem rounds_never {limited : Bool} (hworkers : 1 ≤ workers) (hjobs : (jobs.map (·.path)).Nodup)
    (hends : limited = true ∨ ∀ job ∈ jobs, job.outcome ≠ .never) (fuel : Nat)
    (h : Sound jobs pool) (hrest : Resting jobs pool) (hfuel : pool.pending.length ≤ fuel) :
    ∃ events, (∀ event ∈ events, event.Fits jobs) ∧
      (rounds jobs workers limited fuel pool never).1 = pool.steps events ∧
      (pool.steps events).pending = [] := by
  induction fuel generalizing pool with
  | zero =>
      exact ⟨[], fun event hevent => (List.not_mem_nil hevent).elim, rfl,
        List.eq_nil_of_length_eq_zero (Nat.le_zero.mp hfuel)⟩
  | succ fuel ih =>
      by_cases hne : pool.pending = []
      · rw [rounds, if_pos (List.isEmpty_iff.mpr hne)]
        exact ⟨[], fun event hevent => (List.not_mem_nil hevent).elim, rfl, hne⟩
      · obtain ⟨events, hfits, hpoll, hrest', hlt⟩ :=
          exists_next_of_poll? hworkers h hjobs hends hrest hne
        have hround : rounds jobs workers limited (fuel + 1) pool never =
            rounds jobs workers limited fuel (pool.steps events) never := by
          rw [rounds_succ hne, look_never, (needs_readEvents _).unset]
          show afterReaders jobs workers limited fuel pool _ never = _
          unfold afterReaders
          rw [hpoll]
        obtain ⟨later, hfits', hlater, hdone⟩ := ih (h.steps hjobs hfits) hrest' (by omega)
        refine ⟨events ++ later, ?_, ?_, ?_⟩
        · intro event hevent
          exact (List.mem_append.mp hevent).elim (hfits event) (hfits' event)
        · rw [hround, hlater, Pool.steps_append]
        · rw [Pool.steps_append]
          exact hdone

/-- The pool in which every file waits is sound. -/
theorem sound_ofPaths (jobs : List Job) : Sound jobs (Pool.ofPaths (jobs.map (·.path))) := by
  have hwaits : ∀ p ∈ (Pool.ofPaths (jobs.map (·.path))).pending, p.stage = .waiting := by
    intro p hp
    obtain ⟨path, -, rfl⟩ := List.mem_map.mp hp
    rfl
  refine ⟨?_, ?_, ?_, ?_⟩
  · unfold Pool.allPaths Pool.unsettled Pool.ofPaths
    rw [List.map_map, List.map_nil, List.append_nil]
    show ((jobs.map (·.path)).map id).Perm _
    rw [List.map_id]
  · intro p hp since hstage
    rw [hwaits p hp] at hstage
    cases hstage
  · intro p hp found hstage
    rw [hwaits p hp] at hstage
    cases hstage
  · intro result hresult
    cases hresult

theorem resting_ofPaths (jobs : List Job) : Resting jobs (Pool.ofPaths (jobs.map (·.path))) := by
  refine ⟨?_, ?_⟩
  · intro p hp since hstage
    obtain ⟨path, -, rfl⟩ := List.mem_map.mp hp
    cases hstage
  · intro p hp found hstage
    obtain ⟨path, -, rfl⟩ := List.mem_map.mp hp
    cases hstage

/-- When all reads are settled each job has what it finds, and nothing else has anything. -/
theorem Sound.results_of (h : Sound jobs pool) (hjobs : (jobs.map (·.path)).Nodup)
    (hdone : pool.pending = []) :
    (∀ job ∈ jobs, pool.results.of job.path = job.found) ∧
      ∀ path, path ∉ jobs.map (·.path) → pool.results.of path = OrderedSet.empty := by
  have hall : (pool.results.map (·.1)).Perm (jobs.map (·.path)) := by
    have haccounted := h.accounted
    unfold Pool.allPaths Pool.unsettled at haccounted
    rwa [hdone, List.map_nil, List.nil_append] at haccounted
  constructor
  · intro job hjob
    obtain ⟨result, hresult, hpath⟩ := List.mem_map.mp (hall.symm.subset (List.mem_map_of_mem hjob))
    obtain ⟨job', hjob', hpath', hfound⟩ := h.settled result hresult
    have hsame : job' = job := List.inj_on_of_nodup_map hjobs hjob' hjob (hpath'.trans hpath)
    have hmem : (job.path, job.found) ∈ pool.results := by
      rw [← hpath, ← hsame, hfound]
      exact hresult
    unfold SpecifierMap.of
    rw [lookup_of_nodup (hall.nodup_iff.mpr hjobs) hmem]
    rfl
  · intro path hpath
    unfold SpecifierMap.of
    rw [lookup_of_not_mem fun hmem => hpath (hall.subset hmem)]
    rfl

/-! ## Readings in any order -/

/-- **`Reads jobs called results`** — what reading jobs may come to, in whatever order the reads
begin, end and are polled.  Only if the scan is called off by the end may a reader skip its file, or
the reading stop before all is settled. -/
def Reads (jobs : List Job) (called : Bool) (results : SpecifierMap) : Prop :=
  ∃ events : List Event,
    (∀ event ∈ events, event.Fits jobs ∨ called = true ∧ ∃ path, event = .finish path none) ∧
      (((Pool.ofPaths (jobs.map (·.path))).steps events).pending = [] ∨ called = true) ∧
      ((Pool.ofPaths (jobs.map (·.path))).steps events).results = results

/-- **Readings that are not called off all find the same**: each job what it finds, and nothing
else. -/
theorem Reads.of_jobs {results : SpecifierMap} (h : Reads jobs false results)
    (hjobs : (jobs.map (·.path)).Nodup) :
    (∀ job ∈ jobs, results.of job.path = job.found) ∧
      ∀ path, path ∉ jobs.map (·.path) → results.of path = OrderedSet.empty := by
  obtain ⟨events, hevents, hdone, rfl⟩ := h
  have hfits : ∀ event ∈ events, event.Fits jobs :=
    fun event hevent => (hevents event hevent).resolve_right fun hskip => Bool.noConfusion hskip.1
  have hsound := (sound_ofPaths jobs).steps hjobs hfits
  exact hsound.results_of hjobs (hdone.resolve_right Bool.noConfusion)

/-- **Reading in rounds without a signal is a reading that is not called off.** -/
theorem reads_readAll_never {timeout : Float} (hworkers : 1 ≤ workers)
    (hends : limits timeout = true ∨ ∀ job ∈ jobs, job.outcome ≠ .never)
    (hjobs : (jobs.map (·.path)).Nodup) :
    Reads jobs false (readAll jobs workers timeout never).1 := by
  have hlength : (Pool.ofPaths (jobs.map (·.path))).pending.length ≤ jobs.length + 1 := by
    unfold Pool.ofPaths
    rw [List.length_map, List.length_map]
    omega
  obtain ⟨events, hfits, hrounds, hdone⟩ := rounds_never hworkers hjobs hends (jobs.length + 1)
    (sound_ofPaths jobs) (resting_ofPaths jobs) hlength
  refine ⟨events, fun event hevent => Or.inl (hfits event hevent), Or.inl hdone, ?_⟩
  rw [← hrounds]
  rfl

/-! ## Tracked files -/

/-- What a tracked file imports, as it is in a tree. -/
def importsIn (root : Entry) (file : TrackedFile) : NameSet :=
  if file.language = .none then OrderedSet.empty
  else
    ((Outcome.ofEntry (root.at? (Text.splitAt '/' file.path))).specifiers? file.language).getD
      OrderedSet.empty

/-- Tracked files are read for different jobs. -/
theorem nodup_jobsOf (root : Entry) {files : List TrackedFile}
    (distinct : (files.map (·.path)).Nodup) : ((jobsOf root files).map (·.path)).Nodup := by
  unfold jobsOf
  rw [List.map_map]
  exact ((List.filter_sublist).map _).nodup distinct

/-- **A reading that is not called off gives each tracked file what its own text imports.** -/
theorem Reads.of_jobsOf {root : Entry} {files : List TrackedFile} {results : SpecifierMap}
    (h : Reads (jobsOf root files) false results) (distinct : (files.map (·.path)).Nodup)
    {file : TrackedFile} (hfile : file ∈ files) : results.of file.path = importsIn root file := by
  obtain ⟨hfound, hnone⟩ := h.of_jobs (nodup_jobsOf root distinct)
  unfold importsIn
  by_cases hlanguage : file.language = .none
  · -- another job of the path would be a tracked file with a language
    rw [if_pos hlanguage]
    apply hnone
    intro hmem
    obtain ⟨job, hjob, hpath⟩ := List.mem_map.mp hmem
    obtain ⟨other, hother, rfl⟩ := List.mem_map.mp hjob
    obtain ⟨hother, hkind⟩ := List.mem_filter.mp hother
    have hsame : other = file := List.inj_on_of_nodup_map distinct hother hfile hpath
    rw [hsame, hlanguage] at hkind
    exact absurd rfl (of_decide_eq_true hkind)
  · rw [if_neg hlanguage]
    have hjob : Job.mk file.path file.language
        (.ofEntry (root.at? (Text.splitAt '/' file.path))) ∈ jobsOf root files :=
      List.mem_map.mpr ⟨file, List.mem_filter.mpr ⟨hfile, decide_eq_true hlanguage⟩, rfl⟩
    exact hfound _ hjob

end SourceAtlas.Reading
