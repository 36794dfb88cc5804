/-
# SourceAtlas.Proofs.Scan.Unheeded — a scan that is not called off is as if it could not be.

A signal may be set by looking, by the examination of an entry or by the reading of a file.
Whatever would have set it, a run that leaves it unset comes to what it comes to without a signal
(`Unheeded`).  A look has this property, and it is kept when runs follow one another
(`Unheeded.bind`) and when a run goes on only while the signal is unset (`Unheeded.unlessSet`).  So
the walk has it, the rounds of reading have it, and at last the scan (`unheeded_run`).
-/
import SourceAtlas.Proofs.Reading.Rounds
import SourceAtlas.Scan

namespace SourceAtlas

namespace Signal

variable {α β : Type}

/-! ## Runs that are not called off -/

/-- **`Unheeded run`** — if the run leaves the signal unset, the signal makes no difference
to it. -/
structure Unheeded (run : Signal → α × Signal) : Prop where
  /-- No run sets the signal that is never set. -/
  unset : (run never).2 = never
  /-- A signal that is set stays set. -/
  before : ∀ signal, (run signal).2.isSet = false → signal.isSet = false
  /-- What the run comes to is what it comes to without a signal. -/
  same : ∀ signal, (run signal).2.isSet = false → (run signal).1 = (run never).1

theorem unheeded_const (a : α) : Unheeded fun signal => (a, signal) where
  unset := rfl
  before := fun _ h => h
  same := fun _ _ => rfl

/-- A run that leaves every signal as it is. -/
theorem Unheeded.of_still {run : Signal → α × Signal} {a : α}
    (h : ∀ signal, run signal = (a, signal)) : Unheeded run := by
  rw [funext h]
  exact unheeded_const a

/-- Runs one after another. -/
theorem Unheeded.bind {first : Signal → α × Signal} {next : α → Signal → β × Signal}
    (hfirst : Unheeded first) (hnext : ∀ a, Unheeded (next a)) :
    Unheeded fun signal => next (first signal).1 (first signal).2 where
  unset := by
    show (next (first never).1 (first never).2).2 = never
    rw [hfirst.unset, (hnext _).unset]
  before := fun signal h => hfirst.before signal ((hnext _).before _ h)
  same := by
    intro signal h
    show (next (first signal).1 (first signal).2).1 = (next (first never).1 (first never).2).1
    -- what the second run leaves unset was unset between the two as well
    rw [(hnext _).same _ h, hfirst.same signal ((hnext _).before _ h), hfirst.unset]

theorem Unheeded.map {run : Signal → α × Signal} (h : Unheeded run) (f : α → β) :
    Unheeded fun signal => (f (run signal).1, (run signal).2) :=
  h.bind fun a => unheeded_const (f a)

/-- Look at the signal, and go on unless it is set. -/
def unlessSet (stop : α) (next : Signal → α × Signal) (signal : Signal) : α × Signal :=
  if signal.look.1 then (stop, signal.look.2) else next signal.look.2

theorem unlessSet_of_isSet {signal : Signal} (h : signal.isSet = true) (stop : α)
    (next : Signal → α × Signal) : unlessSet stop next signal = (stop, signal) := by
  unfold unlessSet
  rw [(look_of_isSet h).1]
  rfl

theorem unlessSet_of_not_isSet {signal : Signal} (h : signal.isSet = false) (stop : α)
    (next : Signal → α × Signal) : unlessSet stop next signal = next (signal.spend 1) := by
  unfold unlessSet
  rw [(look_of_not_isSet h).1]
  rfl

theorem isSet_of_unlessSet {stop : α} {next : Signal → α × Signal} {signal : Signal}
    (h : (unlessSet stop next signal).2.isSet = false) : signal.isSet = false := by
  cases hset : signal.isSet with
  | false => rfl
  | true => rw [unlessSet_of_isSet hset, hset] at h; exact h

/-- A run that goes on only while the signal is unset. -/
theorem Unheeded.unlessSet {next : Signal → α × Signal} (h : Unheeded next) (stop : α) :
    Unheeded (unlessSet stop next) where
  unset := h.unset
  before := fun _ => isSet_of_unlessSet
  same := by
    intro signal hleft
    have hset := isSet_of_unlessSet hleft
    rw [unlessSet_of_not_isSet hset] at hleft ⊢
    exact h.same _ hleft

theorem unheeded_look : Unheeded look := by
  have hlook : look = unlessSet true fun signal => (false, signal) := by
    funext signal
    cases hset : signal.isSet with
    | true => rw [unlessSet_of_isSet hset, (look_of_isSet hset).1]
    | false => rw [unlessSet_of_not_isSet hset, (look_of_not_isSet hset).1]
  rw [hlook]
  exact (unheeded_const false).unlessSet true

theorem unheeded_examine (path : String) :
    Unheeded fun signal => ((), signal.examine path) where
  unset := rfl
  before := by
    intro signal h
    simp only [examine] at h
    split at h
    · cases h
    · exact h
  same := fun _ _ => rfl

end Signal

open Signal

/-! ## Walking -/

namespace Walk

theorem walkAll_cons (lead : String) (entry : Entry) (rest : List Entry) :
    walkAll lead (entry :: rest) = unlessSet [] fun signal =>
      let first := walkEntry lead entry (signal.examine (lead ++ entry.name))
      let others := walkAll lead rest first.2
      (first.1 ++ others.1, others.2) := by
  funext signal
  rw [walkAll]
  unfold unlessSet
  rcases signal.look with ⟨called, left⟩
  cases called with
  | true => rfl
  | false => rfl

mutual

theorem unheeded_walkEntry (lead : String) : ∀ entry : Entry, Unheeded (walkEntry lead entry)
  | .file name faults content => .of_still fun signal => by rw [walkEntry]
  | .folder name faults entries => by
      have hentries := unheeded_walkAll (lead ++ name ++ "/") entries
      by_cases hfault : (faults.examine || faults.list) = true
      · exact .of_still fun signal => by rw [walkEntry, if_pos hfault]
      · have hinto : walkEntry lead (.folder name faults entries) =
            walkAll (lead ++ name ++ "/") entries := by
          funext signal
          rw [walkEntry, if_neg hfault]
        rw [hinto]
        exact hentries
  | .link name faults target => .of_still fun signal => by rw [walkEntry]
  | .special name faults => .of_still fun signal => by rw [walkEntry]

theorem unheeded_walkAll (lead : String) : ∀ entries : List Entry, Unheeded (walkAll lead entries)
  | [] => .of_still fun signal => by rw [walkAll]
  | entry :: rest => by
      rw [walkAll_cons]
      have hvisit := (unheeded_examine (lead ++ entry.name)).bind fun _ =>
        unheeded_walkEntry lead entry
      exact (hvisit.bind fun first => (unheeded_walkAll lead rest).map (first ++ ·)).unlessSet []

end

theorem unheeded_listingUnder (root : Entry) : Unheeded fun signal => listingUnder signal root := by
  unfold listingUnder
  split
  · exact unheeded_const _
  · exact unheeded_walkAll "" root.ordered.entries

theorem unheeded_files (folders extensions : List String) (root : Entry) :
    Unheeded fun signal => files folders extensions signal root :=
  (unheeded_listingUnder root).bind fun found =>
    unheeded_look.map (classify folders extensions found)

end Walk

/-! ## Reading -/

namespace Reading

variable {workers : Nat} {limited : Bool}

/-- A reader that is not kept from its file is done with it as the file has it. -/
theorem unheeded_takeUp (job : Job) : Unheeded job.takeUp := by
  have htakeUp : job.takeUp = unlessSet (some none) fun signal =>
      (if signal.onRead = some job.path then none
        else (job.outcome.specifiers? job.language).map some, signal.read job.path) := by
    funext signal
    unfold Job.takeUp unlessSet
    rcases signal.look with ⟨called, left⟩
    cases called with
    | true => rfl
    | false => rfl
  rw [htakeUp]
  -- reading sets the signal exactly where it takes the file from the reader
  have hread : ∀ signal : Signal, (signal.read job.path).isSet = false →
      signal.isSet = false ∧ signal.onRead ≠ some job.path := by
    intro signal h
    unfold Signal.read at h
    split at h
    · cases h
    · rename_i hother
      exact ⟨h, hother⟩
  refine Unheeded.unlessSet ⟨rfl, fun signal h => (hread signal h).1, fun signal h => ?_⟩ _
  exact if_neg (hread signal h).2

theorem unheeded_readEvents (jobs : List Job) : Unheeded (readEvents jobs) := by
  induction jobs with
  | nil => exact unheeded_const []
  | cons job rest ih =>
      exact (unheeded_takeUp job).bind fun found =>
        ih.map fun events => .start job.path :: ((found.map (.finish job.path)).toList ++ events)

/-- A poll sees of the signal only whether it is set. -/
theorem poll?_congr {signal other : Signal} (h : signal.isSet = other.isSet) (pool : Pool) :
    poll? limited pool signal = poll? limited pool other := by
  unfold poll?
  rw [h]

theorem unheeded_afterReaders {jobs : List Job} {fuel : Nat}
    (ih : ∀ pool, Unheeded (rounds jobs workers limited fuel pool)) (pool : Pool)
    (events : List Event) : Unheeded (afterReaders jobs workers limited fuel pool events) := by
  have hunset : ∀ signal : Signal, signal.isSet = false →
      poll? limited (pool.steps events) signal = poll? limited (pool.steps events) never :=
    fun signal h => poll?_congr h _
  have hbefore : ∀ signal,
      (afterReaders jobs workers limited fuel pool events signal).2.isSet = false →
        signal.isSet = false := by
    intro signal h
    unfold afterReaders at h
    split at h
    · exact (ih _).before signal h
    · exact h
  refine ⟨?_, hbefore, fun signal h => ?_⟩
  · unfold afterReaders
    split
    · exact (ih _).unset
    · rfl
  · -- the poll decides as it does without a signal, so the same rounds follow
    have hset := hbefore signal h
    unfold afterReaders at h ⊢
    rw [hunset signal hset] at h ⊢
    cases hpoll : poll? limited (pool.steps events) never with
    | none => rfl
    | some next =>
        rw [hpoll] at h
        exact (ih next).same signal h

theorem unheeded_rounds (jobs : List Job) (fuel : Nat) (pool : Pool) :
    Unheeded (rounds jobs workers limited fuel pool) := by
  induction fuel generalizing pool with
  | zero => exact unheeded_const pool
  | succ fuel ih =>
      by_cases hne : pool.pending = []
      · exact .of_still fun signal => by rw [rounds, if_pos (List.isEmpty_iff.mpr hne)]
      · have hround : rounds jobs workers limited (fuel + 1) pool = unlessSet pool fun signal =>
            afterReaders jobs workers limited fuel pool
              (readEvents (nextJobs jobs workers pool) signal).1
              (readEvents (nextJobs jobs workers pool) signal).2 :=
          funext (rounds_succ hne jobs fuel)
        rw [hround]
        exact ((unheeded_readEvents _).bind (unheeded_afterReaders ih pool)).unlessSet pool

theorem unheeded_readAll (jobs : List Job) (workers : Nat) (timeout : Float) :
    Unheeded (readAll jobs workers timeout) := by
  have hrounds : Unheeded (rounds jobs workers (limits timeout) (jobs.length + 1)
      (Pool.ofPaths (jobs.map (·.path)))) := unheeded_rounds jobs _ _
  exact hrounds.map Pool.results

end Reading

/-! ## Scanning -/

namespace Scan

theorem unheeded_gather (root : Entry) (options : ScanOptions) : Unheeded (gather root options) := by
  have hread : ∀ (walk : Walk.Result) (early : Bool), Unheeded fun signal =>
      if early then ([], signal)
      else
        Reading.readAll (Reading.jobsOf root walk.tracked) options.maxWorkers.toNat
          options.readTimeout signal := by
    intro walk early
    cases early with
    | true => exact unheeded_const []
    | false => exact Reading.unheeded_readAll _ _ _
  have hlate : ∀ walk : Walk.Result, Unheeded fun signal =>
      if walk.cancelled then (true, signal) else signal.look := by
    intro walk
    cases walk.cancelled with
    | true => exact unheeded_const true
    | false => exact unheeded_look
  exact (Walk.unheeded_files _ _ root).bind fun walk => unheeded_look.bind fun early =>
    (hread walk early).bind fun specifiers => (hlate walk).map (Findings.mk walk specifiers)

/-- **A scan that leaves its signal unset comes to what it comes to without a signal.** -/
theorem unheeded_run (fs : FileSystem) (root : Option String) (generatedAt : String)
    (options : ScanOptions) : Unheeded (run fs root generatedAt options) := by
  unfold run
  split
  · exact unheeded_const _
  · exact (unheeded_gather _ options).map (conclude _ generatedAt options)

end Scan

end SourceAtlas
