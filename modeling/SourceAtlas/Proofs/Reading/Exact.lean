/-
# SourceAtlas.Proofs.Reading.Exact — every run of the reading loop reads exactly.

Whatever readers, clock and signal do between the steps of the loop: no file has two live tickets,
at the head of a round every file has a result or is pending, only a read that has begun and has run
for too long is given up, what is given up stays given up, and what has ended in time does not
become so.  When the loop has stopped and the scan was not called off, every file has one result,
which is what its read has found or, if it was given up, empty (`run_exact`).
-/
import SourceAtlas.Proofs.Keyed
import SourceAtlas.Proofs.Reading.Orderly

namespace SourceAtlas.Reading.Loop

variable {jobs : List Job} {workers : Nat} {limit : Option Nat} {loop next : Loop} {path : String}

/-- **`Overdue limit loop path`** — the read of a file has begun, has not ended, and has run for
longer than the limit. -/
def Overdue (limit : Option Nat) (loop : Loop) (path : String) : Prop :=
  ∃ ticket ∈ loop.tickets, ticket.job.path = path ∧ ticket.stage.started = true ∧
    ticket.stage.done = false ∧ ∃ bound since, limit = some bound ∧
      loop.begun.lookup path = some since ∧ bound < loop.now - since

/-! ## What is given up -/

/-- What is given up stays so. -/
theorem Moves.abandoned_subset (hmoves : Moves limit loop next) :
    ∀ path ∈ loop.abandoned, path ∈ next.abandoned := by
  cases hmoves with
  | judge phase limited has late => exact fun path hpath => List.mem_cons_of_mem _ hpath
  | _ => exact fun path hpath => hpath

theorem abandoned_subset_run (workers : Nat) (limit : Option Nat) (loop : Loop)
    (events : List Event) :
    ∀ path ∈ loop.abandoned, path ∈ (loop.run workers limit events).abandoned := by
  induction events generalizing loop with
  | nil => exact fun path hpath => hpath
  | cons event rest ih =>
      intro path hpath
      exact ih (loop.step workers limit event) path
        ((moves_step workers limit loop event).abandoned_subset path hpath)

/-- **Only what is overdue is given up.** -/
theorem Orderly.overdue (h : Orderly jobs loop loop.phase) (hjobs : (jobs.map (·.path)).Nodup)
    (hmoves : Moves limit loop next) (hnew : path ∈ next.abandoned) (hold : path ∉ loop.abandoned) :
    Overdue limit loop path := by
  cases hmoves with
  | @judge time number rest stalled ticket bound phase limited has late =>
      rcases List.mem_cons.mp hnew with rfl | hnew
      · have h := phase ▸ h
        obtain ⟨hundone, hlate⟩ := Bool.and_eq_true_iff.mp late
        -- the time is noted only of reads that have begun
        cases hlookup : loop.begun.lookup ticket.job.path with
        | none =>
            rw [hlookup] at hlate
            cases hlate
        | some since =>
            rw [hlookup] at hlate
            have hlong : bound < time - since := of_decide_eq_true hlate
            have htime : time ≤ loop.now := h.timely time rfl
            have hnoted : ticket.job.path ∈ loop.begun.map (·.1) := by
              by_contra hnot
              rw [lookup_of_not_mem hnot] at hlookup
              cases hlookup
            obtain ⟨other, hother, hpath, hstarted⟩ := (h.started _).mp hnoted
            obtain ⟨same, hsame, hlive⟩ := h.issued number
              (List.mem_append_left _ (h.held.2 number (List.mem_append_right _ List.mem_cons_self)))
            rw [has] at hsame
            obtain rfl := Option.some.inj hsame
            have hticket := List.mem_of_getElem? has
            have heq : other = ticket :=
              h.eq_of_path hjobs hother hticket (live_of_started hstarted) hlive hpath
            subst heq
            exact ⟨other, hticket, rfl, hstarted, Bool.not_eq_true' _ ▸ hundone, bound, since,
              limited, hlookup, by omega⟩
      · exact absurd hnew hold
  | _ => exact absurd hnew hold

/-! ## What has ended -/

/-- A read that has ended stays as it is. -/
theorem Moves.mem_of_done (hmoves : Moves limit loop next) {ticket : Ticket}
    (hticket : ticket ∈ loop.tickets) (hdone : ticket.stage.done = true) :
    ticket ∈ next.tickets := by
  cases hmoves with
  | @work number moved stage begun has was undone live started found =>
      exact mem_setStage_of_done has undone stage hticket hdone
  | submit phase => exact List.mem_append_left _ hticket
  | withdraw phase has => exact mem_setStage_of_done has rfl .withdrawn hticket hdone
  | _ => exact hticket

/-- **A read that has ended in time is not given up afterwards.** -/
theorem Orderly.spared (h : Orderly jobs loop loop.phase) (hjobs : (jobs.map (·.path)).Nodup)
    {ticket : Ticket} (hticket : ticket ∈ loop.tickets) (hdone : ticket.stage.done = true)
    (hspared : ticket.job.path ∉ loop.abandoned) (events : List Event) :
    ticket.job.path ∉ (loop.run workers limit events).abandoned := by
  induction events generalizing loop with
  | nil => exact hspared
  | cons event rest ih =>
      have hmoves := moves_step workers limit loop event
      refine ih (h.moves hjobs hmoves) (hmoves.mem_of_done hticket hdone) fun hnew => ?_
      obtain ⟨other, hother, hpath, hstarted, hundone, -⟩ := h.overdue hjobs hmoves hnew hspared
      have heq := h.eq_of_path hjobs hother hticket (live_of_started hstarted)
        (live_of_started (started_of_done hdone)) hpath
      rw [heq, hdone] at hundone
      cases hundone

/-! ## Exact loops -/

/-- **`Exact jobs workers limit loop`** — what holds of the loop now and however it goes on. -/
structure Exact (jobs : List Job) (workers : Nat) (limit : Option Nat) (loop : Loop) : Prop where
  /-- No file has two live tickets. -/
  single : loop.tickets.Pairwise fun ticket other =>
    ticket.stage.live = true → other.stage.live = true → ticket.job.path ≠ other.job.path
  /-- At the head of a round, each file has a result, is pending, or is skipped, and only one of
  these, once. -/
  placed : loop.phase = .head →
    (loop.results.map (·.1) ++ (pathsOf loop.tickets loop.pending ++ loop.skipped)).Perm
      (jobs.map (·.path))
  /-- Files are skipped only when the scan is called off. -/
  skipped : loop.skipped ≠ [] → loop.calledOff = true
  /-- A file is given up only while its read has begun and is overdue. -/
  overdue : ∀ event, ∀ path ∈ (loop.step workers limit event).abandoned,
    path ∉ loop.abandoned → Overdue limit loop path
  /-- A file that is given up stays so, whatever becomes of its read: it never has a result but the
  empty one, and it has that between rounds and at the end. -/
  kept : ∀ path ∈ loop.abandoned, ∀ later,
    path ∈ (loop.run workers limit later).abandoned ∧
      (∀ found, (path, found) ∈ (loop.run workers limit later).results →
        found = OrderedSet.empty) ∧
      ((loop.run workers limit later).phase = .head ∨
        (loop.run workers limit later).phase = .stopped →
          (path, OrderedSet.empty) ∈ (loop.run workers limit later).results)
  /-- A file whose read has ended in time is not given up afterwards. -/
  spared : ∀ ticket ∈ loop.tickets, ticket.stage.done = true →
    ticket.job.path ∉ loop.abandoned → ∀ later,
      ticket.job.path ∉ (loop.run workers limit later).abandoned
  /-- At the end every file has one result: the empty one if it was given up, and else what its read
  has found. -/
  complete : loop.phase = .stopped → loop.calledOff = false →
    (loop.results.map (·.1)).Perm (jobs.map (·.path)) ∧
      ∀ job ∈ jobs,
        (job.path ∈ loop.abandoned → loop.results.lookup job.path = some OrderedSet.empty) ∧
        (job.path ∉ loop.abandoned → ∃ found,
          job.outcome.specifiers? job.language = some found ∧
            loop.results.lookup job.path = some found)

namespace Orderly

variable (h : Orderly jobs loop loop.phase) (hjobs : (jobs.map (·.path)).Nodup)
include h hjobs

theorem pairwise_live : loop.tickets.Pairwise fun ticket other =>
    ticket.stage.live = true → other.stage.live = true → ticket.job.path ≠ other.job.path := by
  have hnodup := h.nodup_livePaths hjobs
  unfold livePaths at hnodup
  rw [List.Nodup, List.pairwise_map, List.pairwise_filter] at hnodup
  exact hnodup

omit hjobs in
/-- Once the loop has stopped, every file has a result or the scan was called off. -/
theorem perm_results (hstopped : loop.phase = .stopped) (hoff : loop.calledOff = false) :
    (loop.results.map (·.1)).Perm (jobs.map (·.path)) := by
  have hpending : loop.pending = [] :=
    (h.stopped hstopped).resolve_right (by rw [hoff]; exact Bool.false_ne_true)
  have hskipped : loop.skipped = [] := by
    by_contra hne
    rw [h.skipped hne] at hoff
    cases hoff
  have hplaced := h.placed
  rw [hstopped, hpending, hskipped] at hplaced
  have hresults : (loop.results.map Prod.fst ++ []).Perm (jobs.map Job.path) := hplaced
  rwa [List.append_nil] at hresults

/-- Once the loop has stopped, the result of a file tells what has become of its read. -/
theorem lookup_results (hstopped : loop.phase = .stopped) (hoff : loop.calledOff = false) {job : Job}
    (hjob : job ∈ jobs) :
    (job.path ∈ loop.abandoned → loop.results.lookup job.path = some OrderedSet.empty) ∧
      (job.path ∉ loop.abandoned → ∃ found, job.outcome.specifiers? job.language = some found ∧
        loop.results.lookup job.path = some found) := by
  have hperm := h.perm_results hstopped hoff
  have hnodup : (loop.results.map (·.1)).Nodup := hperm.nodup_iff.mpr hjobs
  obtain ⟨⟨path, found⟩, hresult, hpath⟩ :=
    List.mem_map.mp (hperm.symm.subset (List.mem_map_of_mem hjob))
  have hlookup : loop.results.lookup job.path = some found :=
    lookup_of_nodup hnodup (hpath ▸ hresult)
  rcases h.told _ hresult with ⟨hin, hempty⟩ | ⟨hnot, ticket, hticket, hof, hstage⟩
  · rw [show path = job.path from hpath] at hin
    exact ⟨fun _ => hlookup.trans (congrArg some hempty), fun hnot => absurd hin hnot⟩
  · rw [show path = job.path from hpath] at hnot hof
    refine ⟨fun hin => absurd hin hnot, fun _ => ⟨found, ?_, hlookup⟩⟩
    -- the ticket is of this very file, and its read has ended with a result
    have hsame : ticket.job = job :=
      List.inj_on_of_nodup_map hjobs (h.known ticket hticket) hjob hof
    rcases h.ended ticket hticket _ hstage with ⟨hnone, -⟩ | ⟨-, hfound⟩
    · cases hnone
    · rw [← hsame]
      exact hfound

omit hjobs in
/-- What is given up has no result but the empty one. -/
theorem eq_empty (hin : path ∈ loop.abandoned) {found : NameSet}
    (hresult : (path, found) ∈ loop.results) : found = OrderedSet.empty := by
  rcases h.told _ hresult with ⟨-, hempty⟩ | ⟨hnot, -⟩
  · exact hempty
  · exact absurd hin hnot

omit hjobs in
/-- Between rounds, what is given up has the empty result. -/
theorem mem_results (hphase : loop.phase = .head ∨ loop.phase = .stopped)
    (hin : path ∈ loop.abandoned) :
    (path, OrderedSet.empty) ∈ loop.results := by
  have hgiven := h.given path hin
  rcases hphase with hphase | hphase
  · rw [hphase] at hgiven
    exact hgiven.resolve_right nofun
  · rw [hphase] at hgiven
    exact hgiven.resolve_right nofun

/-- **An orderly loop is exact.** -/
theorem exact (workers : Nat) (limit : Option Nat) : Exact jobs workers limit loop where
  single := h.pairwise_live hjobs
  placed := by
    intro hhead
    have hplaced := h.placed
    rw [hhead] at hplaced
    refine List.Perm.trans (List.Perm.append_left _ ?_) hplaced
    show (pathsOf loop.tickets loop.pending ++ loop.skipped).Perm
      (loop.skipped ++ (pathsOf loop.tickets (loop.pending ++ []) ++ []))
    rw [List.append_nil, List.append_nil]
    exact List.perm_append_comm
  skipped := h.skipped
  overdue := fun event path hnew hold =>
    h.overdue hjobs (moves_step workers limit loop event) hnew hold
  kept := fun path hin later =>
    have hlater := abandoned_subset_run workers limit loop later path hin
    have hrun := h.run hjobs workers limit later
    ⟨hlater, fun _ hresult => hrun.eq_empty hlater hresult,
      fun hphase => hrun.mem_results hphase hlater⟩
  spared := fun ticket hticket hdone hspared later => h.spared hjobs hticket hdone hspared later
  complete := fun hstopped hoff =>
    ⟨h.perm_results hstopped hoff, fun job hjob => h.lookup_results hjobs hstopped hoff hjob⟩

end Orderly

/-- **Every run of the loop is exact**, whatever the files, the readers, the limit and the order of
what happens. -/
theorem run_exact (jobs : List Job) (distinct : (jobs.map (·.path)).Nodup) (workers : Nat)
    (limit : Option Nat) (events : List Event) :
    Exact jobs workers limit ((ofJobs jobs).run workers limit events) :=
  ((orderly_ofJobs jobs).run distinct workers limit events).exact distinct workers limit

/-- A file whose read hangs, and one behind it. -/
def hangingJobs : List Job :=
  [⟨"hang.py", .python, .never⟩,
    ⟨"main.py", .python, .text (.bytes [105, 109, 112, 111, 114, 116, 32, 98])⟩]

/-- The first file keeps the one reader until it is given up, and a fresh reader reads the other. -/
def hangingEvents : List Event :=
  List.replicate 4 (.proceed []) ++ [.take 0, .start 0, .look 0, .pass 2]
    ++ List.replicate 12 (.proceed []) ++ [.take 2, .start 2, .look 2, .finish 2]
    ++ List.replicate 5 (.proceed [2])

theorem run_exact_hanging :
    (hangingJobs.map (·.path)).Nodup ∧
      Exact hangingJobs 1 (some 1) ((ofJobs hangingJobs).run 1 (some 1) hangingEvents) ∧
      ((ofJobs hangingJobs).run 1 (some 1) hangingEvents).phase = .stopped ∧
      ((ofJobs hangingJobs).run 1 (some 1) hangingEvents).abandoned = ["hang.py"] ∧
      ((ofJobs hangingJobs).run 1 (some 1) hangingEvents).results.map
        (fun result => (result.1, result.2.toList)) = [("main.py", ["b"]), ("hang.py", [])] := by
  have hdistinct : (hangingJobs.map (·.path)).Nodup := by decide
  refine ⟨hdistinct, run_exact hangingJobs hdistinct 1 (some 1) hangingEvents, rfl, ?_, ?_⟩
  · decide +kernel
  · decide +kernel

end SourceAtlas.Reading.Loop
