/-
# SourceAtlas.Proofs.Report.Permuted — a report does not show the order of the walk.

Every stage of the pipeline forgets in which order the files came: the index because keys are
distinct, the graph because it is a set, the main file and the rankings because no two files tie,
the folder tree because files can be added to it in either order.  So the report is the same for
every order of the tracked files and of the paths in their folders (`ofSpecifiers_perm`); and where
a number is too big for a report, it is too big in every order.
-/
import SourceAtlas.Proofs.FolderTree.Commute
import SourceAtlas.Proofs.Report.Consistent
import SourceAtlas.Proofs.Report.Order

namespace SourceAtlas

variable {files files' : List TrackedFile} {mainFile : Option String} {limit : Int}

/-! ## The main file -/

theorem selectMain?_perm (hperm : files.Perm files') (distinct : (files.map (·.path)).Nodup)
    (configured : Option String) :
    selectMain? files configured = selectMain? files' configured := by
  have hany : ∀ path, files.any (·.path == path) = files'.any (·.path == path) :=
    fun path => hperm.any_eq
  unfold selectMain?
  rw [settles_leadsAsMain.mergeSort_perm hperm distinct]
  simp only [hany]

theorem Report.mainSize_perm (hperm : files.Perm files') (distinct : (files.map (·.path)).Nodup)
    (mainFile : Option String) : mainSize files mainFile = mainSize files' mainFile := by
  have hreverse : files.reverse.Perm files'.reverse :=
    (List.reverse_perm _).trans (hperm.trans (List.reverse_perm _).symm)
  have hdistinct : (files.reverse.map (·.path)).Nodup := by
    rw [List.map_reverse, List.nodup_reverse]
    exact distinct
  unfold mainSize
  simp only [find?_perm hreverse hdistinct]

/-! ## The ranking -/

theorem rankCritical_perm (hperm : files.Perm files') (distinct : (files.map (·.path)).Nodup)
    (sized : ∀ file ∈ files, 0 ≤ file.size) :
    rankCritical files mainFile limit = rankCritical files' mainFile limit := by
  have hfault : ∀ file ∈ files.filter (isCandidate mainFile), ∀ fault,
      scoredEntry mainFile file = .error fault → fault = .tooBig :=
    fun file hfile fault h => (scoredEntry_error (sized file (List.mem_of_mem_filter hfile)) h).1
  unfold rankCritical
  rcases mapM_perm (hperm.filter _) hfault with
    ⟨entries, entries', hentries, hentries', hforall, hentriesPerm⟩ | ⟨hfails, hfails'⟩
  · have hpaths : (entries.map (·.path)).Nodup := by
      rw [map_path_entries hforall]
      exact distinct.sublist (List.filter_sublist.map _)
    have hempty : entries.isEmpty = entries'.isEmpty := hentriesPerm.isEmpty_eq
    rw [hentries, hentries']
    show (if entries.isEmpty then _ else _) = (if entries'.isEmpty then _ else _)
    rw [hempty, settles_isLarger.mergeSort_perm hperm distinct,
      CriticalEntry.settles_leads.mergeSort_perm hentriesPerm hpaths]
  · rw [hfails, hfails']
    rfl

/-! ## The report -/

namespace Report

variable {root generatedAt : String} {choice : Choice}

/-- Assembling does not show the order of the finished files, nor that of the paths of the tree, and
of the graph it shows the edges and what is missing. -/
theorem assemble_perm {totals : WalkTotals} {folderPaths : List String} {analyzedSize : Int}
    {graph graph' : ImportGraph} {cancelled : Bool} (hperm : files.Perm files')
    (hfolders : totals.folderPaths.Perm folderPaths) (distinct : (files.map (·.path)).Nodup)
    (sized : ∀ file ∈ files, 0 ≤ file.size) (hedges : graph.edges = graph'.edges)
    (hmissing : graph.missing = graph'.missing) :
    assemble root generatedAt totals analyzedSize files graph choice cancelled =
      assemble root generatedAt { totals with folderPaths } analyzedSize files' graph' choice
        cancelled := by
  have hsorted : (files.mergeSort fun a b => a.path ≤ b.path) =
      files'.mergeSort fun a b => a.path ≤ b.path :=
    (Settles.byPath TrackedFile.path).mergeSort_perm hperm distinct
  have hbySource : graph.missingBySource = graph'.missingBySource := by
    unfold ImportGraph.missingBySource ImportGraph.missingOf
    rw [hmissing]
  unfold assemble
  simp only [selectMain?_perm hperm distinct, mainSize_perm hperm distinct,
    rankCritical_perm hperm distinct sized, hsorted, settles_isLarger.mergeSort_perm hperm distinct,
    hperm.length_eq, FolderTree.ofPaths_perm hfolders, hedges, hbySource]

/-- **A report is the same for every order of the tracked files and of the paths of the tree**, if
no two files have one key under the root: it has the same fields, or fails alike. -/
theorem ofSpecifiers_perm (root generatedAt : String) (totals : WalkTotals)
    (folderPaths : List String) (files files' : List TrackedFile) (specifiers : SpecifierMap)
    (choice : Choice) (cancelled : Bool) (hfiles : files.Perm files')
    (hfolders : totals.folderPaths.Perm folderPaths)
    (keys : (files.map fun file => Path.key (Path.join root file.path)).Nodup)
    (sized : ∀ file ∈ files, 0 ≤ file.size) :
    ofSpecifiers root generatedAt { totals with folderPaths } files' specifiers choice cancelled =
      ofSpecifiers root generatedAt totals files specifiers choice cancelled := by
  have distinct : (files.map (·.path)).Nodup := by
    refine List.Nodup.of_map (fun path => Path.key (Path.join root path)) ?_
    rw [List.map_map]
    exact keys
  obtain ⟨hedges, hmissing⟩ := ImportGraph.ofFiles_perm hfiles keys
  have hfinalize : (ImportGraph.ofFiles root files specifiers).finalize =
      (ImportGraph.ofFiles root files' specifiers).finalize := by
    funext file
    unfold ImportGraph.finalize ImportGraph.importsOf ImportGraph.importersOf
    rw [hedges]
  have hsize : (files.map (·.size)).foldl (· + ·) 0 = (files'.map (·.size)).foldl (· + ·) 0 :=
    (hfiles.map _).foldl_eq 0
  unfold ofSpecifiers
  simp only
  rw [← hsize, ← hfinalize]
  refine (assemble_perm (hfiles.map _) hfolders ?_ ?_ hedges hmissing).symm
  · rw [map_path_finalize]
    exact distinct
  · intro file hfile
    obtain ⟨raw, hraw, rfl⟩ := List.mem_map.mp hfile
    exact sized raw hraw

theorem ofSpecifiers_perm_reverse :
    cyclicFiles.Perm cyclicFiles.reverse ∧
      ["src/a.ts", "src/b.ts"].Perm ["src/b.ts", "src/a.ts"] ∧
      (cyclicFiles.map fun file => Path.key (Path.join "/p" file.path)).Nodup ∧
      (∀ file ∈ cyclicFiles, 0 ≤ file.size) ∧
      ofSpecifiers "/p" "" ⟨["src/b.ts", "src/a.ts"], 2, 30⟩ cyclicFiles.reverse cyclicSpecifiers
          ⟨none, 12⟩ false =
        ofSpecifiers "/p" "" ⟨["src/a.ts", "src/b.ts"], 2, 30⟩ cyclicFiles cyclicSpecifiers
          ⟨none, 12⟩ false := by
  have hfiles : cyclicFiles.Perm cyclicFiles.reverse := (List.reverse_perm _).symm
  have hfolders : ["src/a.ts", "src/b.ts"].Perm ["src/b.ts", "src/a.ts"] := by decide
  have keys : (cyclicFiles.map fun file => Path.key (Path.join "/p" file.path)).Nodup := by
    decide +kernel
  have sized : ∀ file ∈ cyclicFiles, 0 ≤ file.size := by decide
  exact ⟨hfiles, hfolders, keys, sized, ofSpecifiers_perm "/p" "" ⟨["src/a.ts", "src/b.ts"], 2, 30⟩
    ["src/b.ts", "src/a.ts"] cyclicFiles cyclicFiles.reverse cyclicSpecifiers ⟨none, 12⟩ false
    hfiles hfolders keys sized⟩

end Report

end SourceAtlas
