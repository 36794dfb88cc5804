/-
# SourceAtlas.Proofs.Reading.Readers — what the readers of a round do, readers of the loop do.

The readers of a round take up files one after another.  Readers of the loop do the same with the
tickets of these files, as long as the latest set has readers free (`Mirrors.exists_readers`).
-/
import SourceAtlas.Proofs.Reading.Mirror
import SourceAtlas.Proofs.Signal

namespace SourceAtlas.Reading.Loop

variable {jobs : List Job} {workers : Nat} {limit : Option Nat} {loop next : Loop} {pool : Pool}

/-! ## Readers -/

theorem Follows.trans {pool' : Pool} {last : Loop} {more more' : Nat}
    (h : Follows workers limit jobs loop pool more next)
    (h' : Follows workers limit jobs next pool' more' last) :
    Follows workers limit jobs loop pool' (more + more') last where
  reaches := h.reaches.trans h'.reaches
  mirrors := h'.mirrors
  beside := ⟨h'.beside.phase.trans h.beside.phase, h'.beside.pending.trans h.beside.pending,
    h'.beside.readers.trans h.beside.readers⟩
  roomy := fun hroomy => h'.roomy (h.roomy hroomy)
  busy := by
    have hfirst := h.busy
    have hsecond := h'.busy
    omega

/-- A read keeps its stage while another starts or ends. -/
theorem stage?_step_of_ne (event : Reading.Event) (hdistinct : pool.unsettled.Nodup) {path : String}
    {stage : Stage} (hstage : pool.stage? path = some stage) (hne : event.path? ≠ some path) :
    (pool.step event).stage? path = some stage := by
  obtain ⟨p, hp, rfl, rfl⟩ := Pool.exists_of_stage? hstage
  have hmem := ((Pool.moves_step pool event).mem_pending_of_ne hne).mpr hp
  exact Pool.stage?_of_mem (Pool.nodup_step event hdistinct) hmem

/-- A read that starts runs from now on. -/
theorem stage?_start (hdistinct : pool.unsettled.Nodup) {path : String}
    (hwaits : pool.stage? path = some .waiting) :
    (pool.step (.start path)).stage? path = some (.running pool.now) := by
  obtain ⟨p, hp, rfl, -⟩ := Pool.exists_of_stage? hwaits
  have hstep : pool.step (.start p.path) = pool.setStage p.path (.running pool.now) := by
    simp only [Pool.step, hwaits]
  have hmem : { p with stage := .running pool.now } ∈
      (pool.setStage p.path (.running pool.now)).pending :=
    Pool.mem_setStage.mpr (Or.inl ⟨p, hp, rfl, rfl⟩)
  have hdistinct' := Pool.nodup_step (.start p.path) hdistinct
  rw [hstep] at hdistinct' ⊢
  exact Pool.stage?_of_mem hdistinct' hmem

namespace Mirrors

section Readers

variable (h : Mirrors jobs pool loop) (hjobs : (jobs.map (·.path)).Nodup)
include h hjobs

/-- What a reader does with a file, some reader of the loop does. -/
theorem exists_takeUp {job : Job} (hjob : job ∈ jobs) {signal : Signal}
    (hwaits : pool.stage? job.path = some .waiting) (hroom : loop.busy loop.readers < workers)
    (hcalled : loop.calledOff = true → signal.isSet = true) :
    ∃ next, Follows workers limit jobs loop
        (pool.steps (.start job.path :: ((job.takeUp signal).1.map (.finish job.path)).toList)) 1
        next ∧
      (next.calledOff = true → (job.takeUp signal).2.isSet = true) := by
  have hstart : ∃ next, Follows workers limit jobs loop (pool.step (.start job.path)) 1 next ∧
      next.calledOff = loop.calledOff := h.exists_start hjobs hroom hwaits
  obtain ⟨next, hnext, hoff⟩ := hstart
  have hruns := stage?_start (h.nodup_unsettled hjobs) hwaits
  cases hset : signal.isSet with
  | true =>
      -- the reader finds the scan called off
      have htakeUp : job.takeUp signal = (some none, signal) := by
        unfold Job.takeUp
        rw [(Signal.look_of_isSet hset).1]
      have hfinish : ∃ last, Follows workers limit jobs next
          ((pool.step (.start job.path)).step (.finish job.path none)) 0 last ∧
            last.calledOff = true := hnext.mirrors.exists_finish_called hjobs hruns
      obtain ⟨last, hlast, -⟩ := hfinish
      rw [htakeUp]
      exact ⟨last, hnext.trans hlast, fun _ => hset⟩
  | false =>
      have hnot : loop.calledOff = false := by
        by_contra hcontra
        rw [hcalled (Bool.not_eq_false _ ▸ hcontra)] at hset
        cases hset
      have htakeUp : job.takeUp signal =
          (if (signal.spend 1).onRead = some job.path then none
            else (job.outcome.specifiers? job.language).map some,
            (signal.spend 1).read job.path) := by
        unfold Job.takeUp
        rw [(Signal.look_of_not_isSet hset).1]
      rw [htakeUp]
      split
      · -- the signal is set while the file is read, and the read does not end
        exact ⟨next, hnext, fun hcontra => by rw [hoff, hnot] at hcontra; cases hcontra⟩
      · cases hfound : job.outcome.specifiers? job.language with
        | none =>
            exact ⟨next, hnext, fun hcontra => by rw [hoff, hnot] at hcontra; cases hcontra⟩
        | some found =>
            have hfinish : ∃ last, Follows workers limit jobs next
                ((pool.step (.start job.path)).step (.finish job.path (some found))) 0 last ∧
                  last.calledOff = false :=
              hnext.mirrors.exists_finish_found hjobs hruns (hoff.trans hnot) hjob rfl hfound
            obtain ⟨last, hlast, hlastOff⟩ := hfinish
            refine ⟨last, hnext.trans hlast, fun hcontra => ?_⟩
            rw [hlastOff] at hcontra
            cases hcontra

end Readers

/-- **What the readers of a round do, readers of the loop do.** -/
theorem exists_readers (hjobs : (jobs.map (·.path)).Nodup) (taken : List Job)
    (h : Mirrors jobs pool loop) {signal : Signal} (htaken : ∀ job ∈ taken, job ∈ jobs)
    (hdistinct : (taken.map (·.path)).Nodup)
    (hwaits : ∀ job ∈ taken, pool.stage? job.path = some .waiting)
    (hroom : taken ≠ [] → loop.busy loop.readers + taken.length ≤ workers)
    (hcalled : loop.calledOff = true → signal.isSet = true) :
    ∃ next, Follows workers limit jobs loop (pool.steps (readEvents taken signal).1) taken.length
        next ∧
      (next.calledOff = true → (readEvents taken signal).2.isSet = true) := by
  induction taken generalizing pool loop signal with
  | nil => exact ⟨loop, ⟨Reaches.refl loop, h, ⟨rfl, rfl, rfl⟩, id, Nat.le_refl _⟩, hcalled⟩
  | cons job rest ih =>
      obtain ⟨hfirst, hrest⟩ := List.nodup_cons.mp hdistinct
      have hfits : loop.busy loop.readers + (rest.length + 1) ≤ workers :=
        hroom (List.cons_ne_nil job rest)
      have htakeUp : ∃ next, Follows workers limit jobs loop (pool.steps
          (.start job.path :: ((job.takeUp signal).1.map (.finish job.path)).toList)) 1 next ∧
          (next.calledOff = true → (job.takeUp signal).2.isSet = true) :=
        h.exists_takeUp hjobs (htaken job List.mem_cons_self) (hwaits job List.mem_cons_self)
          (by omega) hcalled
      obtain ⟨next, hnext, hnextCalled⟩ := htakeUp
      -- the other files wait as before
      have hothers : ∀ other ∈ rest, (pool.steps (.start job.path ::
          ((job.takeUp signal).1.map (.finish job.path)).toList)).stage? other.path =
            some .waiting := by
        intro other hother
        have hne : some job.path ≠ some other.path := by
          intro heq
          exact hfirst (List.mem_map.mpr ⟨other, hother, (Option.some.inj heq).symm⟩)
        have hstart := stage?_step_of_ne (.start job.path) (h.nodup_unsettled hjobs)
          (hwaits other (List.mem_cons_of_mem _ hother)) hne
        cases (job.takeUp signal).1 with
        | none => exact hstart
        | some found =>
            exact stage?_step_of_ne (.finish job.path found)
              (Pool.nodup_step _ (h.nodup_unsettled hjobs)) hstart hne
      have hbusy := hnext.busy
      have hmore : ∃ last, Follows workers limit jobs next _ rest.length last ∧ _ :=
        ih hnext.mirrors (fun other hother => htaken other (List.mem_cons_of_mem _ hother)) hrest
          hothers (fun _ => by omega) hnextCalled
      obtain ⟨last, hlast, hlastCalled⟩ := hmore
      refine ⟨last, ?_, hlastCalled⟩
      have hsteps : pool.steps (readEvents (job :: rest) signal).1 = (pool.steps (.start job.path ::
          ((job.takeUp signal).1.map (.finish job.path)).toList)).steps
            (readEvents rest (job.takeUp signal).2).1 := by
        rw [← Pool.steps_append]
        rfl
      rw [hsteps, List.length_cons, Nat.add_comm]
      exact hnext.trans hlast

end Mirrors

end SourceAtlas.Reading.Loop
