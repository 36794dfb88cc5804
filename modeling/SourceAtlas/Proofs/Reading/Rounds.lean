/-
# SourceAtlas.Proofs.Reading.Rounds — the rounds of reading under a signal.

The pools that rounds go through do not depend on the signal; the signal only says after which look
they stop.  So there is a number of looks, those of the rounds and those of the readers, beyond
which a signal makes no difference to the reading at all, and up to which it is found set afterwards
(`exists_needs_readAll`).
-/
import SourceAtlas.Proofs.Signal
import SourceAtlas.Reading.Schedule

namespace SourceAtlas.Reading

open Signal

variable {workers : Nat} {limited : Bool}

/-! ## Taking up files -/

/-- A reader needs one look. -/
theorem needs_takeUp (job : Job) : Needs job.takeUp 1 where
  unset := rfl
  enough := by
    intro n hn
    unfold Job.takeUp
    rw [look_after, decide_eq_false (by omega)]
    rfl
  short := by
    intro n hn
    have hlook : (after n).look = (decide (n = 0), after 0) := by
      rw [look_after, Nat.sub_eq_zero_of_le hn]
    unfold Job.takeUp
    rw [hlook]
    cases decide (n = 0) with
    | true => rfl
    | false => rfl

/-- Readers leave a signal set that they find set. -/
theorem readEvents_after_zero (jobs : List Job) : (readEvents jobs (after 0)).2 = after 0 := by
  induction jobs with
  | nil => rfl
  | cons job rest ih =>
      show (readEvents rest (job.takeUp (after 0)).2).2 = after 0
      rw [(needs_takeUp job).short 0 (Nat.zero_le 1), ih]

/-- Readers need a look for each file. -/
theorem needs_readEvents (jobs : List Job) : Needs (readEvents jobs) jobs.length := by
  induction jobs with
  | nil => exact needs_zero []
  | cons job rest ih =>
      let next (found : Option (Option NameSet)) (signal : Signal) : List Event × Signal :=
        (.start job.path :: ((found.map (.finish job.path)).toList ++ (readEvents rest signal).1),
          (readEvents rest signal).2)
      have hnext : ∀ found, Needs (next found) rest.length := by
        intro found
        refine ⟨ih.unset, ?_, ih.short⟩
        intro n hn
        show (_, (readEvents rest (after n)).2) = (_, _)
        rw [ih.enough n hn]
      rw [List.length_cons, Nat.add_comm]
      exact (needs_takeUp job).bind (hnext _) fun found => readEvents_after_zero rest

/-! ## Rounds -/

/-- Rounds leave a signal set that they find set. -/
theorem rounds_after_zero (jobs : List Job) (fuel : Nat) (pool : Pool) :
    rounds jobs workers limited fuel pool (after 0) = (pool, after 0) := by
  cases fuel with
  | zero => rfl
  | succ fuel =>
      rw [rounds]
      split
      · rfl
      · rfl

/-- What follows once the readers of a round are done. -/
def afterReaders (jobs : List Job) (workers : Nat) (limited : Bool) (fuel : Nat) (pool : Pool)
    (events : List Event) (signal : Signal) : Pool × Signal :=
  match poll? limited (pool.steps events) signal with
  | some next => rounds jobs workers limited fuel next signal
  | none => (pool.steps events, signal)

/-- A round that is not the last begins with a look. -/
theorem rounds_succ {pool : Pool} (hne : pool.pending ≠ []) (jobs : List Job) (fuel : Nat)
    (signal : Signal) :
    rounds jobs workers limited (fuel + 1) pool signal =
      if signal.look.1 then (pool, signal.look.2)
      else
        afterReaders jobs workers limited fuel pool
          (readEvents (nextJobs jobs workers pool) signal.look.2).1
          (readEvents (nextJobs jobs workers pool) signal.look.2).2 := by
  have hsome : ¬ pool.pending.isEmpty = true := by rwa [List.isEmpty_iff]
  rw [rounds, if_neg hsome]
  rcases signal.look with ⟨called, left⟩
  cases called with
  | true => rfl
  | false => rfl

theorem afterReaders_after_zero (jobs : List Job) (fuel : Nat) (pool : Pool)
    (events : List Event) :
    (afterReaders jobs workers limited fuel pool events (after 0)).2 = after 0 := by
  unfold afterReaders
  split
  · rw [rounds_after_zero]
  · rfl

/-- A poll does not see how many looks are left, as long as there are some. -/
theorem poll?_after {n : Nat} (hn : 0 < n) (pool : Pool) :
    poll? limited pool (after n) = poll? limited pool never := by
  unfold poll?
  rw [isSet_after, decide_eq_false (by omega)]
  rfl

/-- What follows needs the looks that the further rounds need. -/
theorem exists_needs_afterReaders {jobs : List Job} {fuel : Nat}
    (ih : ∀ pool, ∃ looks, Needs (rounds jobs workers limited fuel pool) looks) (pool : Pool)
    (events : List Event) :
    ∃ looks, Needs (afterReaders jobs workers limited fuel pool events) looks := by
  cases hpoll : poll? limited (pool.steps events) never with
  | none =>
      -- the rounds stop here, set or not
      refine ⟨0, ?_, ?_, ?_⟩
      · unfold afterReaders
        rw [hpoll]
      · intro n hn
        unfold afterReaders
        rw [poll?_after hn, hpoll]
        rfl
      · intro n hn
        rw [Nat.le_zero.mp hn]
        exact afterReaders_after_zero jobs fuel pool events
  | some next =>
      obtain ⟨looks, h⟩ := ih next
      refine ⟨looks, ?_, ?_, ?_⟩
      · unfold afterReaders
        rw [hpoll]
        exact h.unset
      · intro n hn
        unfold afterReaders
        rw [poll?_after (by omega), hpoll]
        exact h.enough n hn
      · intro n hn
        -- a signal that is set may stop the poll itself, before any further round
        cases n with
        | zero => exact afterReaders_after_zero jobs fuel pool events
        | succ n =>
            unfold afterReaders
            rw [poll?_after (Nat.succ_pos n), hpoll]
            exact h.short (n + 1) hn

/-- **There is a number of looks that the rounds need.** -/
theorem exists_needs_rounds (jobs : List Job) (workers : Nat) (limited : Bool) (fuel : Nat)
    (pool : Pool) : ∃ looks, Needs (rounds jobs workers limited fuel pool) looks := by
  induction fuel generalizing pool with
  | zero => exact ⟨0, needs_zero pool⟩
  | succ fuel ih =>
      by_cases hne : pool.pending = []
      · refine ⟨0, ?_⟩
        have hrun : rounds jobs workers limited (fuel + 1) pool = fun signal => (pool, signal) := by
          funext signal
          rw [rounds, if_pos (List.isEmpty_iff.mpr hne)]
        rw [hrun]
        exact needs_zero pool
      · obtain ⟨looks, h⟩ := exists_needs_afterReaders ih pool
          (readEvents (nextJobs jobs workers pool) never).1
        -- the look of the round, the looks of its readers, and those of the further rounds
        let read (signal : Signal) : Pool × Signal :=
          afterReaders jobs workers limited fuel pool
            (readEvents (nextJobs jobs workers pool) signal).1
            (readEvents (nextJobs jobs workers pool) signal).2
        let round (called : Bool) (signal : Signal) : Pool × Signal :=
          if called then (pool, signal) else read signal
        have hread : Needs read ((nextJobs jobs workers pool).length + looks) :=
          (needs_readEvents (nextJobs jobs workers pool)).bind h
            (afterReaders_after_zero jobs fuel pool)
        have hset : ∀ called, (round called (after 0)).2 = after 0 := by
          intro called
          cases called with
          | true => rfl
          | false => exact hread.short 0 (Nat.zero_le _)
        have hrun : rounds jobs workers limited (fuel + 1) pool =
            fun signal => round signal.look.1 signal.look.2 := by
          funext signal
          exact rounds_succ hne jobs fuel signal
        rw [hrun]
        exact ⟨_, needs_look.bind hread hset⟩

/-- **There is a number of looks that reading needs.** -/
theorem exists_needs_readAll (jobs : List Job) (workers : Nat) (timeout : Float) :
    ∃ looks, Needs (readAll jobs workers timeout) looks := by
  obtain ⟨looks, h⟩ := exists_needs_rounds jobs workers (limits timeout) (jobs.length + 1)
    (Pool.ofPaths (jobs.map (·.path)))
  let results (pool : Pool) (signal : Signal) : SpecifierMap × Signal := (pool.results, signal)
  have hresults : ∀ pool, Needs (results pool) 0 := fun pool => needs_zero pool.results
  exact ⟨looks + 0, h.bind (hresults _) fun pool => rfl⟩

end SourceAtlas.Reading
