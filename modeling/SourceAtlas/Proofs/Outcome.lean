/-
# SourceAtlas.Proofs.Outcome — steps that may fail, one after another.

A chain of steps gives a result exactly if every step does, and it fails exactly if some step does
after all steps before it have succeeded.  Proofs about the pipeline take a chain apart with the two
bind lemmas and never unfold the monad.
-/
import Mathlib.Data.List.Perm.Basic

namespace SourceAtlas

variable {ε α β : Type}

theorem bind_eq_ok {step : Except ε α} {next : α → Except ε β} {b : β} :
    (step >>= next) = .ok b ↔ ∃ a, step = .ok a ∧ next a = .ok b := by
  cases step with
  | error e =>
      constructor
      · intro h
        cases h
      · rintro ⟨a, h, -⟩
        cases h
  | ok a =>
      constructor
      · intro h
        exact ⟨a, rfl, h⟩
      · rintro ⟨a', h, hnext⟩
        cases h
        exact hnext

theorem bind_eq_error {step : Except ε α} {next : α → Except ε β} {e : ε} :
    (step >>= next) = .error e ↔ step = .error e ∨ ∃ a, step = .ok a ∧ next a = .error e := by
  cases step with
  | error e' =>
      constructor
      · intro h
        cases h
        exact Or.inl rfl
      · rintro (h | ⟨a, h, -⟩)
        · cases h
          rfl
        · cases h
  | ok a =>
      constructor
      · intro h
        exact Or.inr ⟨a, rfl, h⟩
      · rintro (h | ⟨a', h, hnext⟩)
        · cases h
        · cases h
          exact hnext

/-- Telling a failure in other words makes no result and loses none. -/
theorem mapError_eq_ok {ε' : Type} {step : Except ε α} {f : ε → ε'} {a : α} :
    step.mapError f = .ok a ↔ step = .ok a := by
  cases step with
  | error e => exact iff_of_false (fun h => by cases h) (fun h => by cases h)
  | ok a' =>
      constructor
      · intro h
        cases h
        rfl
      · intro h
        cases h
        rfl

/-- A step for each element succeeds as a whole with the results of all steps, in order. -/
theorem forall₂_of_mapM_ok {step : α → Except ε β} {l : List α} {results : List β}
    (h : l.mapM step = .ok results) : List.Forall₂ (fun a b => step a = .ok b) l results := by
  induction l generalizing results with
  | nil =>
      cases h
      exact List.Forall₂.nil
  | cons a rest ih =>
      rw [List.mapM_cons, bind_eq_ok] at h
      obtain ⟨b, hb, h⟩ := h
      rw [bind_eq_ok] at h
      obtain ⟨bs, hbs, h⟩ := h
      cases h
      exact List.Forall₂.cons hb (ih hbs)

/-- Each result is the result of some element. -/
theorem exists_of_mem_mapM {step : α → Except ε β} {l : List α} {results : List β}
    (h : List.Forall₂ (fun a b => step a = .ok b) l results) {b : β} (hb : b ∈ results) :
    ∃ a ∈ l, step a = .ok b := by
  induction h with
  | nil => cases hb
  | cons hstep _ ih =>
      rcases List.mem_cons.mp hb with rfl | hb
      · exact ⟨_, List.mem_cons_self, hstep⟩
      · obtain ⟨a, ha, hok⟩ := ih hb
        exact ⟨a, List.mem_cons_of_mem _ ha, hok⟩

/-- Each element has a result among the results. -/
theorem exists_ok_of_mem {step : α → Except ε β} {l : List α} {results : List β}
    (h : List.Forall₂ (fun a b => step a = .ok b) l results) {a : α} (ha : a ∈ l) :
    ∃ b ∈ results, step a = .ok b := by
  induction h with
  | nil => cases ha
  | cons hstep _ ih =>
      rcases List.mem_cons.mp ha with rfl | ha
      · exact ⟨_, List.mem_cons_self, hstep⟩
      · obtain ⟨b, hb, hok⟩ := ih ha
        exact ⟨b, List.mem_cons_of_mem _ hb, hok⟩

/-- A step for each element fails as a whole only if it fails for one of them. -/
theorem exists_error_of_mapM_error {step : α → Except ε β} {l : List α} {e : ε}
    (h : l.mapM step = .error e) : ∃ a ∈ l, step a = .error e := by
  induction l with
  | nil => cases h
  | cons a rest ih =>
      rw [List.mapM_cons, bind_eq_error] at h
      rcases h with h | ⟨b, hb, h⟩
      · exact ⟨a, List.mem_cons_self, h⟩
      · rw [bind_eq_error] at h
        rcases h with h | ⟨bs, hbs, h⟩
        · obtain ⟨a', ha', h'⟩ := ih h
          exact ⟨a', List.mem_cons_of_mem a ha', h'⟩
        · cases h

/-- A step for each element that does not fail for any succeeds as a whole. -/
theorem exists_mapM_ok {step : α → Except ε β} {l : List α}
    (h : ∀ a ∈ l, ∀ e, step a ≠ .error e) : ∃ results, l.mapM step = .ok results := by
  cases hmap : l.mapM step with
  | ok results => exact ⟨results, rfl⟩
  | error e =>
      obtain ⟨a, ha, he⟩ := exists_error_of_mapM_error hmap
      exact absurd he (h a ha e)

/-- **A step that can fail in one way only comes to the same for every order of the elements**: to
the results in some order, or to the failure. -/
theorem mapM_perm {step : α → Except ε β} {fault : ε} {l m : List α} (hperm : l.Perm m)
    (hfault : ∀ a ∈ l, ∀ e, step a = .error e → e = fault) :
    (∃ results results', l.mapM step = .ok results ∧ m.mapM step = .ok results' ∧
        List.Forall₂ (fun a b => step a = .ok b) l results ∧ results.Perm results') ∨
      (l.mapM step = .error fault ∧ m.mapM step = .error fault) := by
  by_cases hfails : ∃ a ∈ l, ∃ e, step a = .error e
  · -- wherever the first failure is, it is this one
    have hall : ∀ {k : List α}, k.Perm l → k.mapM step = .error fault := by
      intro k hk
      obtain ⟨a, ha, e, he⟩ := hfails
      cases hmap : k.mapM step with
      | ok results =>
          have hforall := forall₂_of_mapM_ok hmap
          obtain ⟨b, -, hb⟩ := exists_ok_of_mem hforall (hk.symm.subset ha)
          rw [he] at hb
          cases hb
      | error e' =>
          obtain ⟨a', ha', he'⟩ := exists_error_of_mapM_error hmap
          rw [hfault a' (hk.subset ha') e' he']
    exact Or.inr ⟨hall (List.Perm.refl l), hall hperm.symm⟩
  · left
    have hok : ∀ a ∈ l, ∀ e, step a ≠ .error e := fun a ha e he => hfails ⟨a, ha, e, he⟩
    obtain ⟨results, hresults⟩ := exists_mapM_ok hok
    obtain ⟨results', hresults'⟩ := exists_mapM_ok fun a ha => hok a (hperm.symm.subset ha)
    refine ⟨results, results', hresults, hresults', forall₂_of_mapM_ok hresults, ?_⟩
    have hunique : Relator.RightUnique fun a b => step a = .ok b := by
      intro a b c hb hc
      rw [hb] at hc
      exact Except.ok.inj hc
    exact List.rel_perm_imp hunique (forall₂_of_mapM_ok hresults) (forall₂_of_mapM_ok hresults')
      hperm

end SourceAtlas
