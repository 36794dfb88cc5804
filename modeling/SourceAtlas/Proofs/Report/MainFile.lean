/-
# SourceAtlas.Proofs.Report.MainFile — which file is the main one.

Of a list of files with distinct paths the main file is the one that is configured, if it is listed,
and otherwise the one that comes strictly before every other by priority, size and path
(`selectMain?_eq_some_iff`).

A text configures the path that it means (`Configures`), and the empty text none.
-/
import SourceAtlas.Proofs.Path.Spelling
import SourceAtlas.Proofs.Report.Permuted

namespace SourceAtlas

variable {files : List TrackedFile} {configured : Option String} {path : String}

/-- **`Configures configured path`** — a text is configured and means the path; the empty text
counts as none. -/
def Configures (configured : Option String) (path : String) : Prop :=
  ∃ text, configured = some text ∧ text ≠ "" ∧ Means text.toList path.toList

/-- **`Foremost files file`** — the file is one of the list, and every other one of the list has a
lower priority, or the same and a smaller size, or both the same and a greater path. -/
def Foremost (files : List TrackedFile) (file : TrackedFile) : Prop :=
  file ∈ files ∧ ∀ other ∈ files, other ≠ file → file.mainRank < other.mainRank

/-! ## What is configured -/

theorem wanted_eq_some_iff :
    (configured.filter (!·.isEmpty)).map spelledPath = some path ↔ Configures configured path := by
  rw [Option.map_eq_some_iff]
  constructor
  · rintro ⟨text, htext, hpath⟩
    obtain ⟨hconfigured, hne⟩ := Option.filter_eq_some_iff.mp htext
    exact ⟨text, hconfigured, by simpa using hne, spelledPath_eq_iff.mp hpath⟩
  · rintro ⟨text, rfl, hne, hmeans⟩
    exact ⟨text, Option.filter_eq_some_iff.mpr ⟨rfl, by simpa using hne⟩,
      spelledPath_eq_iff.mpr hmeans⟩

/-- **A configured path that is listed is the main file.** -/
theorem selectMain?_of_configures (h : Configures configured path)
    (hlisted : path ∈ files.map (·.path)) : selectMain? files configured = some path := by
  obtain ⟨file, hfile, rfl⟩ := List.mem_map.mp hlisted
  have hany : files.any (·.path == file.path) = true :=
    List.any_eq_true.mpr ⟨file, hfile, beq_self_eq_true file.path⟩
  unfold selectMain?
  simp only [wanted_eq_some_iff.mpr h, Option.filter_some, hany, if_true]
  rfl

/-- Where nothing that is configured is listed, the main file is the first in order. -/
theorem selectMain?_of_unlisted (h : ∀ file ∈ files, ¬ Configures configured file.path) :
    selectMain? files configured = (files.mergeSort leadsAsMain).head?.map (·.path) := by
  have hnone : ((configured.filter (!·.isEmpty)).map spelledPath).filter
      (fun path => files.any (·.path == path)) = none := by
    refine Option.filter_eq_none_iff.mpr fun path hpath hany => ?_
    obtain ⟨file, hfile, heq⟩ := List.any_eq_true.mp hany
    rw [← eq_of_beq heq] at hpath
    exact h file hfile (wanted_eq_some_iff.mp hpath)
  unfold selectMain?
  simp only [hnone]
  rfl

/-! ## What comes first -/

/-- The first file in order comes strictly before every other. -/
theorem foremost_of_head? (distinct : (files.map (·.path)).Nodup) {first : TrackedFile}
    (h : (files.mergeSort leadsAsMain).head? = some first) : Foremost files first := by
  obtain ⟨rest, hsorted⟩ := List.head?_eq_some_iff.mp h
  have hperm : (first :: rest).Perm files := hsorted ▸ List.mergeSort_perm files leadsAsMain
  have hordered : (first :: rest).Pairwise fun a b => leadsAsMain a b = true :=
    hsorted ▸ List.pairwise_mergeSort settles_leadsAsMain.trans settles_leadsAsMain.total files
  have hfirst : first ∈ files := hperm.subset List.mem_cons_self
  refine ⟨hfirst, fun other hother hne => ?_⟩
  have hrest : other ∈ rest := (List.mem_cons.mp (hperm.symm.subset hother)).resolve_left hne
  have hle := (leadsAsMain_iff_le first other).mp ((List.pairwise_cons.mp hordered).1 other hrest)
  -- files of one rank have one path, and then they are one file
  refine lt_of_le_of_ne hle fun heq => hne ?_
  exact List.inj_on_of_nodup_map distinct hother hfirst (TrackedFile.path_eq_of_mainRank heq).symm

/-- No two files come before every other. -/
theorem Foremost.unique {file file' : TrackedFile} (h : Foremost files file)
    (h' : Foremost files file') : file = file' := by
  by_contra hne
  exact lt_asymm (h.2 file' h'.1 (Ne.symm hne)) (h'.2 file h.1 hne)

/-! ## The main file -/

/-- A main file that is not configured is foremost. -/
theorem exists_foremost_of_selectMain? (distinct : (files.map (·.path)).Nodup)
    (hnone : ∀ file ∈ files, ¬ Configures configured file.path)
    (h : selectMain? files configured = some path) :
    ∃ file, Foremost files file ∧ file.path = path := by
  rw [selectMain?_of_unlisted hnone] at h
  obtain ⟨first, hfirst, rfl⟩ := Option.map_eq_some_iff.mp h
  exact ⟨first, foremost_of_head? distinct hfirst, rfl⟩

/-- **The main file is what is configured, if that is listed, and otherwise the foremost file.** -/
theorem selectMain?_eq_some_iff (distinct : (files.map (·.path)).Nodup) :
    selectMain? files configured = some path ↔
      path ∈ files.map (·.path) ∧
        (Configures configured path ∨
          (∀ file ∈ files, ¬ Configures configured file.path) ∧
            ∃ file, Foremost files file ∧ file.path = path) := by
  constructor
  · intro h
    refine ⟨mem_of_selectMain? h, ?_⟩
    by_cases hconfigured : ∃ file ∈ files, Configures configured file.path
    · obtain ⟨file, hfile, hmeans⟩ := hconfigured
      rw [selectMain?_of_configures hmeans (List.mem_map_of_mem hfile)] at h
      cases h
      exact Or.inl hmeans
    · have hnone : ∀ file ∈ files, ¬ Configures configured file.path :=
        fun file hfile hmeans => hconfigured ⟨file, hfile, hmeans⟩
      exact Or.inr ⟨hnone, exists_foremost_of_selectMain? distinct hnone h⟩
  · rintro ⟨hlisted, hmeans | ⟨hnone, file, hforemost, rfl⟩⟩
    · exact selectMain?_of_configures hmeans hlisted
    · -- there is a main file, which is foremost as well
      have hne : selectMain? files configured ≠ none := by
        rw [Ne, selectMain?_eq_none_iff]
        exact List.ne_nil_of_mem hforemost.1
      obtain ⟨path, hpath⟩ := Option.ne_none_iff_exists'.mp hne
      obtain ⟨first, hfirst, rfl⟩ := exists_foremost_of_selectMain? distinct hnone hpath
      rw [hpath, hfirst.unique hforemost]

end SourceAtlas
