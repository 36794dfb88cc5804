/-
# SourceAtlas.Proofs.Report.Ranking — the main file and the critical files.

A list of files has a main file exactly if it has files, and the main file is one of them
(`selectMain?_eq_none_iff`, `mem_of_selectMain?`).  The main file always takes part in the ranking
by score.  So the ranking by size is left to lists without files, and the critical entries are a
beginning of the candidates in order of their scores: distinct files, each with its own counts
(`rankCritical_entries`), as many as the limit allows (`length_rankCritical`).
-/
import SourceAtlas.Proofs.Number.Range
import SourceAtlas.Proofs.Outcome

namespace SourceAtlas

open Number

variable {files : List TrackedFile} {configured mainFile : Option String} {limit : Int}
  {entries : List CriticalEntry}

/-! ## The main file -/

/-- The main file is the configured one, which is tracked, or the first of all files in order. -/
theorem selectMain?_cases (files : List TrackedFile) (configured : Option String) :
    (∃ path, selectMain? files configured = some path ∧ path ∈ files.map (·.path)) ∨
      selectMain? files configured = (files.mergeSort leadsAsMain).head?.map (·.path) := by
  unfold selectMain?
  simp only
  cases hwanted : (((configured.filter (!·.isEmpty)).map spelledPath).filter
      fun path => files.any (·.path == path)) with
  | none =>
      right
      rfl
  | some path =>
      left
      refine ⟨path, rfl, ?_⟩
      have hany := (Option.filter_eq_some_iff.mp hwanted).2
      obtain ⟨file, hfile, heq⟩ := List.any_eq_true.mp hany
      rw [← eq_of_beq heq]
      exact List.mem_map_of_mem hfile

theorem selectMain?_eq_none_iff : selectMain? files configured = none ↔ files = [] := by
  constructor
  · intro h
    rcases selectMain?_cases files configured with ⟨path, hpath, -⟩ | hcase
    · rw [h] at hpath
      cases hpath
    · rw [hcase, Option.map_eq_none_iff, List.head?_eq_none_iff] at h
      exact List.length_eq_zero_iff.mp (by rw [← List.length_mergeSort, h, List.length_nil])
  · rintro rfl
    rcases selectMain?_cases [] configured with ⟨path, -, hmem⟩ | hcase
    · cases hmem
    · rw [hcase, List.mergeSort_nil]
      rfl

theorem mem_of_selectMain? {path : String} (h : selectMain? files configured = some path) :
    path ∈ files.map (·.path) := by
  rcases selectMain?_cases files configured with ⟨path', hpath, hmem⟩ | hcase
  · rw [h] at hpath
    cases hpath
    exact hmem
  · rw [hcase, Option.map_eq_some_iff] at h
    obtain ⟨file, hfile, rfl⟩ := h
    exact List.mem_map_of_mem (List.mem_mergeSort.mp (List.mem_of_mem_head? hfile))

/-! ## The ranking -/

theorem length_takeUpTo {α : Type} (h : 0 ≤ limit) (l : List α) :
    ((takeUpTo limit l).length : Int) = min limit l.length := by
  unfold takeUpTo
  rw [if_pos h, List.length_take]
  omega

theorem takeUpTo_sublist {α : Type} (limit : Int) (l : List α) : (takeUpTo limit l).Sublist l := by
  unfold takeUpTo
  split
  · exact List.take_sublist _ _
  · exact List.take_sublist _ _

/-- What the entry of a file tells about it. -/
theorem scoredEntry_ok {file : TrackedFile} {entry : CriticalEntry}
    (h : scoredEntry mainFile file = .ok entry) :
    entry.path = file.path ∧ entry.inbound = file.importedBy.length ∧
      entry.outbound = file.imports.length ∧ entry.size = file.size ∧
      entry.score.isSome = true := by
  unfold scoredEntry at h
  rw [bind_eq_ok] at h
  obtain ⟨score, -, h⟩ := h
  cases h
  exact ⟨rfl, rfl, rfl, rfl, rfl⟩

/-- Scoring a file with a size fails only if its importers or its imports are too many to count. -/
theorem scoredEntry_error {file : TrackedFile} {fault : SizeFault} (hsize : 0 ≤ file.size)
    (h : scoredEntry mainFile file = .error fault) :
    fault = .tooBig ∧
      (roundingLimit ≤ file.importedBy.length ∨ roundingLimit ≤ file.imports.length) := by
  obtain ⟨log, hlog⟩ := commonLog_ok (Int.lt_add_one_of_le hsize)
  unfold scoredEntry criticality at h
  simp only [bind_eq_error] at h
  rcases h with (h | ⟨_, -, h | ⟨_, -, h | ⟨_, -, h⟩⟩⟩) | ⟨_, -, h⟩
  · exact ⟨(asDouble_error h).1, Or.inl (asDouble_error h).2⟩
  · exact ⟨(asDouble_error h).1, Or.inr (asDouble_error h).2⟩
  · rw [hlog] at h
    cases h
  · split at h
    · cases h
    · cases h
  · cases h

/-- The ranking by score, which a main file makes sure of: the ranking by size is for lists without
candidates, and those have no files. -/
theorem rankCritical_ok (hmain : ∀ file ∈ files, ∃ main ∈ files, isCandidate mainFile main)
    (h : rankCritical files mainFile limit = .ok entries) :
    ∃ ranked, List.Forall₂ (fun file entry => scoredEntry mainFile file = .ok entry)
        (files.filter (isCandidate mainFile)) ranked ∧
      entries = takeUpTo limit (ranked.mergeSort CriticalEntry.leads) := by
  unfold rankCritical at h
  rw [bind_eq_ok] at h
  obtain ⟨ranked, hranked, h⟩ := h
  have hforall := forall₂_of_mapM_ok hranked
  refine ⟨ranked, hforall, ?_⟩
  split at h
  · -- without candidates there are no files, so both rankings are empty
    rename_i hempty
    have hnil : ranked = [] := List.isEmpty_iff.mp hempty
    subst hnil
    have hnone : files.filter (isCandidate mainFile) = [] :=
      List.length_eq_zero_iff.mp hforall.length_eq
    have hfiles : files = [] := by
      cases files with
      | nil => rfl
      | cons file rest =>
          obtain ⟨main, hmem, hcand⟩ := hmain file List.mem_cons_self
          exact absurd hcand (List.filter_eq_nil_iff.mp hnone main hmem)
    subst hfiles
    cases h
    simp [takeUpTo]
  · cases h
    rfl

/-- The entries of files have the paths of the files. -/
theorem map_path_entries {entries : List CriticalEntry}
    (h : List.Forall₂ (fun file entry => scoredEntry mainFile file = .ok entry) files entries) :
    entries.map (·.path) = files.map (·.path) := by
  induction h with
  | nil => rfl
  | cons hentry _ ih => rw [List.map_cons, List.map_cons, ih, (scoredEntry_ok hentry).1]

/-- **Critical entries are distinct candidates**, each with the counts of its own file and with a
score. -/
theorem rankCritical_entries (hmain : ∀ file ∈ files, ∃ main ∈ files, isCandidate mainFile main)
    (h : rankCritical files mainFile limit = .ok entries)
    (distinct : (files.map (·.path)).Nodup) :
    (entries.map (·.path)).Nodup ∧
      ∀ entry ∈ entries, ∃ file ∈ files, scoredEntry mainFile file = .ok entry := by
  obtain ⟨ranked, hforall, rfl⟩ := rankCritical_ok hmain h
  have hsub := takeUpTo_sublist limit (ranked.mergeSort CriticalEntry.leads)
  have hperm := List.mergeSort_perm ranked CriticalEntry.leads
  refine ⟨?_, fun entry hentry => ?_⟩
  · have hnodup : (ranked.map (·.path)).Nodup := by
      rw [map_path_entries hforall]
      exact distinct.sublist (List.filter_sublist.map _)
    exact ((hperm.map _).nodup_iff.mpr hnodup).sublist (hsub.map _)
  · obtain ⟨file, hfile, hok⟩ :=
      exists_of_mem_mapM hforall (hperm.subset (hsub.subset hentry))
    exact ⟨file, List.mem_of_mem_filter hfile, hok⟩

/-- **There are as many critical entries as candidates, up to the limit.** -/
theorem length_rankCritical (hmain : ∀ file ∈ files, ∃ main ∈ files, isCandidate mainFile main)
    (h : rankCritical files mainFile limit = .ok entries) (hlimit : 0 ≤ limit) :
    (entries.length : Int) = min limit ((files.countP (isCandidate mainFile) : Nat) : Int) := by
  obtain ⟨ranked, hforall, rfl⟩ := rankCritical_ok hmain h
  rw [length_takeUpTo hlimit, List.length_mergeSort, ← hforall.length_eq,
    List.countP_eq_length_filter]

end SourceAtlas
