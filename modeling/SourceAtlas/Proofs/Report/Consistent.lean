/-
# SourceAtlas.Proofs.Report.Consistent — a report agrees with itself.

`Report.Consistent` is what a reader of a report relies on: edges join tracked files and come in
order, the two adjacency lists of every file are the edges seen from its two ends, the main file is
tracked, and the critical entries repeat the counts of their files.  The main statement
(`ofSpecifiers_consistent`) is for every list of distinct files, every specifier map and every root:
the pipeline gives a consistent report, or it fails because a number is beyond the doubles.
-/
import Mathlib.Data.List.Perm.Subperm
import SourceAtlas.Proofs.ImportGraph.Links
import SourceAtlas.Proofs.Report.Ranking
import SourceAtlas.Scan

namespace SourceAtlas.Report

open Number

/-- **`Consistent files limit report`** — the report of the files agrees with itself, and tells as
many critical files as the limit allows. -/
structure Consistent (files : List TrackedFile) (limit : Int) (report : Report) : Prop where
  /-- The report lists the tracked files, each once. -/
  tracked : (report.files.map (·.path)).Perm (files.map (·.path))
  /-- Edges join two different tracked files. -/
  edgesTracked : ∀ edge ∈ report.graphEdges, edge.source ∈ files.map (·.path) ∧
    edge.target ∈ files.map (·.path) ∧ edge.source ≠ edge.target
  /-- Edges are in order of their sources, then of their targets. -/
  edgesIncreasing : report.graphEdges.Pairwise fun a b =>
    a.source < b.source ∨ (a.source = b.source ∧ a.target < b.target)
  edgesDistinct : report.graphEdges.Nodup
  importsIncreasing : ∀ file ∈ report.files, file.imports.Pairwise (· < ·)
  /-- A file imports what an edge leads to. -/
  importsExact : ∀ file ∈ report.files, ∀ target,
    target ∈ file.imports ↔ ⟨file.path, target⟩ ∈ report.graphEdges
  importedByIncreasing : ∀ file ∈ report.files, file.importedBy.Pairwise (· < ·)
  /-- A file is imported by what an edge comes from. -/
  importedByExact : ∀ file ∈ report.files, ∀ source,
    source ∈ file.importedBy ↔ ⟨source, file.path⟩ ∈ report.graphEdges
  /-- The two lists of two files tell of each other. -/
  reciprocal : ∀ a ∈ report.files, ∀ b ∈ report.files, a.path ∈ b.imports ↔ b.path ∈ a.importedBy
  mainNone : report.mainFile = none ↔ files = []
  mainTracked : ∀ path, report.mainFile = some path → path ∈ files.map (·.path)
  criticalDistinct : report.criticalFiles.Nodup
  /-- An entry repeats what its file says and has a score. -/
  criticalCounts : ∀ entry ∈ report.criticalEntries, ∃ file ∈ report.files,
    entry.path = file.path ∧ entry.inbound = file.importedBy.length ∧
      entry.outbound = file.imports.length ∧ entry.score.isSome = true
  /-- Every file with an import or an importer is told, and the main file, up to the limit. -/
  criticalLength : (report.criticalEntries.length : Int) = min limit
    ((report.files.countP fun file =>
      file.imports ≠ [] ∨ file.importedBy ≠ [] ∨ report.mainFile = some file.path : Nat) : Int)

variable {root generatedAt : String} {totals : WalkTotals} {analyzedSize : Int}
  {files : List TrackedFile} {graph : ImportGraph} {choice : Choice} {cancelled : Bool}
  {report : Report} {fault : SizeFault}

/-! ## Taking the pipeline apart -/

/-- What an assembled report says of files and graph. -/
theorem assemble_ok (h : assemble root generatedAt totals analyzedSize files graph choice cancelled
      = .ok report) :
    report.mainFile = selectMain? files choice.mainFile ∧
      rankCritical files report.mainFile choice.criticalLimit = .ok report.criticalEntries ∧
      report.files = files.mergeSort isLarger ∧ report.graphEdges = graph.edges.toList ∧
      report.unresolved = graph.missingBySource ∧ report.cancelled = cancelled := by
  unfold assemble at h
  simp only [bind_eq_ok] at h
  obtain ⟨mainSize, -, critical, hcritical, totalMb, -, analyzedMb, -, nodes, -, h⟩ := h
  cases h
  exact ⟨rfl, hcritical, rfl, rfl, rfl, rfl⟩

/-- Assembling fails where a size cannot be shown or a file cannot be scored. -/
theorem assemble_error (h : assemble root generatedAt totals analyzedSize files graph choice
      cancelled = .error fault) :
    (∃ size ∈ totals.totalSize :: analyzedSize :: files.map (·.size),
        megabytes size = .error fault) ∨
      rankCritical files (selectMain? files choice.mainFile) choice.criticalLimit =
        .error fault := by
  unfold assemble at h
  simp only [bind_eq_error] at h
  rcases h with h | ⟨_, -, h | ⟨_, -, h | ⟨_, -, h | ⟨_, -, h | ⟨_, -, h⟩⟩⟩⟩⟩
  · -- the size of the main file is the size of a file
    left
    unfold mainSize at h
    split at h
    · rename_i file hfile
      obtain ⟨path, -, hfind⟩ := Option.bind_eq_some_iff.mp hfile
      have hmem : file ∈ files := List.mem_reverse.mp (List.mem_of_find?_eq_some hfind)
      refine ⟨file.size, ?_, ?_⟩
      · simp only [List.mem_cons, List.mem_map]
        exact Or.inr (Or.inr ⟨file, hmem, rfl⟩)
      · cases hsize : megabytes file.size with
        | error e =>
            rw [hsize] at h
            cases h
            rfl
        | ok x =>
            rw [hsize] at h
            cases h
    · cases h
  · exact Or.inr h
  · exact Or.inl ⟨_, List.mem_cons_self, h⟩
  · exact Or.inl ⟨_, List.mem_cons_of_mem _ List.mem_cons_self, h⟩
  · left
    obtain ⟨file, hfile, hnode⟩ := exists_error_of_mapM_error h
    refine ⟨file.size, ?_, ?_⟩
    · simp only [List.mem_cons, List.mem_map]
      exact Or.inr (Or.inr ⟨file, List.mem_mergeSort.mp hfile, rfl⟩)
    · unfold nodeOf at hnode
      rw [bind_eq_error] at hnode
      rcases hnode with hnode | ⟨a, -, hnode⟩
      · exact hnode
      · cases hnode
  · cases h

/-! ## Finished files -/

/-- The main file is a candidate, so a list of files without candidates is empty. -/
theorem exists_candidate (configured : Option String) (file : TrackedFile) (hfile : file ∈ files) :
    ∃ main ∈ files, isCandidate (selectMain? files configured) main = true := by
  cases hmain : selectMain? files configured with
  | none =>
      rw [selectMain?_eq_none_iff.mp hmain] at hfile
      cases hfile
  | some path =>
      obtain ⟨main, hmem, rfl⟩ := List.mem_map.mp (mem_of_selectMain? hmain)
      exact ⟨main, hmem, by simp [isCandidate]⟩

/-- A list of different members of another is no longer than that. -/
theorem length_le_of_increasing {l : List String} {paths : List String}
    (h : l.Pairwise (· < ·)) (hsub : ∀ x ∈ l, x ∈ paths) : l.length ≤ paths.length :=
  (List.subperm_of_subset (OrderedSet.nodup_of_increasing h) hsub).length_le

variable {specifiers : SpecifierMap}

/-- Finishing files keeps their paths. -/
theorem map_path_finalize (graph : ImportGraph) (files : List TrackedFile) :
    (files.map graph.finalize).map (·.path) = files.map (·.path) := by
  rw [List.map_map]
  rfl

/-- Ranking finished files fails only if there are too many of them to count. -/
theorem rankCritical_error_of_finalized {mainFile : Option String} {limit : Int}
    (sized : ∀ file ∈ files, 0 ≤ file.size)
    (h : rankCritical (files.map (ImportGraph.ofFiles root files specifiers).finalize) mainFile limit
      = .error fault) :
    fault = .tooBig ∧ roundingLimit ≤ files.length := by
  unfold rankCritical at h
  rw [bind_eq_error] at h
  rcases h with h | ⟨ranked, -, h⟩
  · obtain ⟨finished, hmem, hentry⟩ := exists_error_of_mapM_error h
    obtain ⟨file, hfile, rfl⟩ := List.mem_map.mp (List.mem_of_mem_filter hmem)
    -- neither list of a file is longer than the list of files
    have hin : ((ImportGraph.ofFiles root files specifiers).importersOf file.path).length ≤
        (files.map (·.path)).length :=
      length_le_of_increasing (ImportGraph.importersOf_increasing _ _) fun source hs =>
        (ImportGraph.ends_of_mem_edges (ImportGraph.mem_importersOf.mp hs)).1
    have hout : ((ImportGraph.ofFiles root files specifiers).importsOf file.path).length ≤
        (files.map (·.path)).length :=
      length_le_of_increasing (ImportGraph.importsOf_increasing _ _) fun target ht =>
        (ImportGraph.ends_of_mem_edges (ImportGraph.mem_importsOf.mp ht)).2.1
    rw [List.length_map] at hin hout
    have hsize : 0 ≤ ((ImportGraph.ofFiles root files specifiers).finalize file).size :=
      sized file hfile
    obtain ⟨hfault, hmany⟩ := scoredEntry_error hsize hentry
    refine ⟨hfault, ?_⟩
    rcases hmany with hmany | hmany
    · exact Nat.le_trans hmany hin
    · exact Nat.le_trans hmany hout
  · split at h
    · cases h
    · cases h

/-- A report of finished files agrees with itself. -/
theorem consistent_of_ok (distinct : (files.map (·.path)).Nodup) (hlimit : 0 ≤ choice.criticalLimit)
    (h : ofSpecifiers root generatedAt totals files specifiers choice cancelled = .ok report) :
    report.Consistent files choice.criticalLimit := by
  obtain ⟨hmain, hcritical, hfiles, hedges, -, -⟩ := assemble_ok h
  rw [hmain] at hcritical
  have hmem : ∀ {file}, file ∈ report.files →
      ∃ f ∈ files, (ImportGraph.ofFiles root files specifiers).finalize f = file := by
    intro file hfile
    rw [hfiles, List.mem_mergeSort] at hfile
    exact List.mem_map.mp hfile
  have hcandidate := fun file (hfile : file ∈ files.map
      (ImportGraph.ofFiles root files specifiers).finalize) =>
    exists_candidate choice.mainFile file hfile
  have hperm : (report.files.map (·.path)).Perm (files.map (·.path)) := by
    rw [hfiles, ← map_path_finalize (ImportGraph.ofFiles root files specifiers) files]
    exact (List.mergeSort_perm _ _).map _
  have himports : ∀ file ∈ report.files, ∀ target,
      target ∈ file.imports ↔ ⟨file.path, target⟩ ∈ report.graphEdges := by
    intro file hfile target
    obtain ⟨f, -, rfl⟩ := hmem hfile
    rw [hedges]
    exact ImportGraph.mem_importsOf
  have hby : ∀ file ∈ report.files, ∀ source,
      source ∈ file.importedBy ↔ ⟨source, file.path⟩ ∈ report.graphEdges := by
    intro file hfile source
    obtain ⟨f, -, rfl⟩ := hmem hfile
    rw [hedges]
    exact ImportGraph.mem_importersOf
  refine
    { tracked := hperm
      edgesTracked := fun edge hedge => ImportGraph.ends_of_mem_edges (hedges ▸ hedge)
      edgesIncreasing := hedges ▸ (ImportGraph.ofFiles root files specifiers).edges.increasing
      edgesDistinct := ?_
      importsIncreasing := fun file hfile => ?_
      importsExact := himports
      importedByIncreasing := fun file hfile => ?_
      importedByExact := hby
      reciprocal := fun a ha b hb => (himports b hb _).trans (hby a ha _).symm
      mainNone := ?_
      mainTracked := fun path hpath => ?_
      criticalDistinct := ?_
      criticalCounts := fun entry hentry => ?_
      criticalLength := ?_ }
  · rw [hedges]
    exact OrderedSet.nodup_of_increasing (ImportGraph.ofFiles root files specifiers).edges.increasing
  · obtain ⟨f, -, rfl⟩ := hmem hfile
    exact ImportGraph.importsOf_increasing _ _
  · obtain ⟨f, -, rfl⟩ := hmem hfile
    exact ImportGraph.importersOf_increasing _ _
  · rw [hmain, selectMain?_eq_none_iff, List.map_eq_nil_iff]
  · rw [← map_path_finalize (ImportGraph.ofFiles root files specifiers) files]
    exact mem_of_selectMain? (hmain ▸ hpath)
  · exact (rankCritical_entries hcandidate hcritical
      (by rw [map_path_finalize]; exact distinct)).1
  · obtain ⟨file, hfile, hscored⟩ := (rankCritical_entries hcandidate hcritical
      (by rw [map_path_finalize]; exact distinct)).2 entry hentry
    obtain ⟨hpath, hin, hout, -, hscore⟩ := scoredEntry_ok hscored
    refine ⟨file, ?_, hpath, hin, hout, hscore⟩
    rw [hfiles, List.mem_mergeSort]
    exact hfile
  · rw [length_rankCritical hcandidate hcritical hlimit, hfiles,
      (List.mergeSort_perm _ _).countP_eq]
    congr 2
    refine List.countP_congr fun file _ => ?_
    simp [isCandidate, hmain, or_comm, or_assoc]

/-! ## Every report -/

/-- **The pipeline gives a consistent report for every list of different files**, whatever their
specifiers, the root and the options; it fails only where a size, or the number of files itself, is
beyond the doubles. -/
theorem ofSpecifiers_consistent (root generatedAt : String) (totals : WalkTotals)
    (files : List TrackedFile) (specifiers : SpecifierMap) (raw : ScanOptions.Raw)
    (cancelled : Bool) (distinct : (files.map (·.path)).Nodup)
    (sized : ∀ file ∈ files, 0 ≤ file.size) :
    (∃ report, ofSpecifiers root generatedAt totals files specifiers
          (Scan.choiceOf (ScanOptions.ofRaw raw).1) cancelled = .ok report ∧
        report.Consistent files (ScanOptions.ofRaw raw).1.criticalLimit) ∨
      (ofSpecifiers root generatedAt totals files specifiers
          (Scan.choiceOf (ScanOptions.ofRaw raw).1) cancelled = .error .tooBig ∧
        ((∃ size ∈ totals.totalSize :: (files.map (·.size)).foldl (· + ·) 0 :: files.map (·.size),
            megabytes size = .error .tooBig) ∨
          roundingLimit ≤ files.length)) := by
  -- the limit of options is never negative
  have hlimit : 0 ≤ (Scan.choiceOf (ScanOptions.ofRaw raw).1).criticalLimit := by
    show 0 ≤ max 0 raw.criticalLimit
    exact Int.le_max_left _ _
  cases hresult : ofSpecifiers root generatedAt totals files specifiers
      (Scan.choiceOf (ScanOptions.ofRaw raw).1) cancelled with
  | ok report => exact Or.inl ⟨report, rfl, consistent_of_ok distinct hlimit hresult⟩
  | error fault =>
      right
      rcases assemble_error hresult with ⟨size, hsize, hfault⟩ | hrank
      · cases megabytes_error hfault
        refine ⟨rfl, Or.inl ⟨size, ?_, hfault⟩⟩
        rwa [List.map_map] at hsize
      · obtain ⟨hfault, hmany⟩ := rankCritical_error_of_finalized sized hrank
        exact ⟨congrArg _ hfault, Or.inr hmany⟩

/-- Two files that import each other. -/
def cyclicFiles : List TrackedFile :=
  [⟨"src/a.ts", ".ts", 10, [], []⟩, ⟨"src/b.ts", ".ts", 20, [], []⟩]

/-- What they import: each other, themselves, a package, and a file that is not there. -/
def cyclicSpecifiers : SpecifierMap :=
  [("src/a.ts", OrderedSet.ofList ["./b", "./a", "react"]),
    ("src/b.ts", OrderedSet.ofList ["../src/a.ts", "./gone"])]

theorem ofSpecifiers_consistent_of_cycle :
    (cyclicFiles.map (·.path)).Nodup ∧ (∀ file ∈ cyclicFiles, 0 ≤ file.size) ∧
      ((∃ report, ofSpecifiers "/p" "" ⟨["src/a.ts", "src/b.ts"], 2, 30⟩ cyclicFiles
            cyclicSpecifiers (Scan.choiceOf (ScanOptions.ofRaw (.default none)).1) false =
              .ok report ∧
          report.Consistent cyclicFiles (ScanOptions.ofRaw (.default none)).1.criticalLimit) ∨
        (ofSpecifiers "/p" "" ⟨["src/a.ts", "src/b.ts"], 2, 30⟩ cyclicFiles cyclicSpecifiers
            (Scan.choiceOf (ScanOptions.ofRaw (.default none)).1) false = .error .tooBig ∧
          ((∃ size ∈ (30 : Int) :: (cyclicFiles.map (·.size)).foldl (· + ·) 0
                :: cyclicFiles.map (·.size), megabytes size = .error .tooBig) ∨
            roundingLimit ≤ cyclicFiles.length))) :=
  ⟨by decide, by decide, ofSpecifiers_consistent "/p" "" ⟨["src/a.ts", "src/b.ts"], 2, 30⟩
    cyclicFiles cyclicSpecifiers (.default none) false (by decide) (by decide)⟩

end SourceAtlas.Report
