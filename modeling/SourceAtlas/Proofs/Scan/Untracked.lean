/-
# SourceAtlas.Proofs.Scan.Untracked — what is not tracked does not show in the analysis.

A scan tracks the files that lie outside the excluded folders and have an active extension
(`Tracks`).  Two trees with the same tracked files may differ in all else: in excluded folders, in
files of other extensions, in links, special files and empty folders.  The tracked files of both
come in the same order (`tracked_congr`) and import the same, so the reports of both trees agree in
everything that is not a total of the tree (`run_untracked`).  A total that is too big for a double
is the one thing by which the rest of a tree can keep a scan from its report.
-/
import Mathlib.Data.List.Sort
import SourceAtlas.Proofs.Reading.Bytes
import SourceAtlas.Proofs.Scan.Faults
import SourceAtlas.Proofs.Walk.Exact

namespace SourceAtlas

/-! ## Totals of a report -/

namespace Report

variable {root generatedAt : String} {totals : WalkTotals} {analyzedSize : Int}
  {files : List TrackedFile} {graph : ImportGraph} {choice : Choice} {cancelled : Bool}
  {report : Report}

/-- The report with the totals of another walk, at another time. -/
def withTotals (report : Report) (generatedAt : String) (totals : WalkTotals) (sizeMb : Float) :
    Report :=
  { report with
    generatedAt
    totalFiles := totals.totalFiles
    totalSizeMb := sizeMb
    folderTree := FolderTree.ofPaths totals.folderPaths "/" }

/-- **`SameAnalysis report report'`** — two reports agree in all but the time of the scan and the
totals of the tree. -/
def SameAnalysis (report report' : Report) : Prop :=
  report' = { report with
    generatedAt := report'.generatedAt
    totalFiles := report'.totalFiles
    totalSizeMb := report'.totalSizeMb
    folderTree := report'.folderTree }

/-- Where there is a report, other totals change nothing else about it, unless they are too big. -/
theorem assemble_totals
    (h : assemble root generatedAt totals analyzedSize files graph choice cancelled = .ok report)
    (generatedAt' : String) (totals' : WalkTotals) :
    assemble root generatedAt' totals' analyzedSize files graph choice cancelled =
      (megabytes totals'.totalSize).map (report.withTotals generatedAt' totals') := by
  unfold assemble at h ⊢
  simp only [bind_eq_ok] at h
  obtain ⟨mainSize, hmain, critical, hcritical, totalMb, -, analyzedMb, hanalyzed, nodes, hnodes,
    h⟩ := h
  rw [← Except.ok.inj h]
  simp only [hmain, hcritical, hanalyzed, hnodes]
  cases megabytes totals'.totalSize with
  | error fault => rfl
  | ok sizeMb => rfl

theorem ofSpecifiers_totals {specifiers : SpecifierMap}
    (h : ofSpecifiers root generatedAt totals files specifiers choice cancelled = .ok report)
    (generatedAt' : String) (totals' : WalkTotals) :
    ofSpecifiers root generatedAt' totals' files specifiers choice cancelled =
      (megabytes totals'.totalSize).map (report.withTotals generatedAt' totals') :=
  assemble_totals h generatedAt' totals'

end Report

namespace Scan

open Entry Signal

variable {tree tree' : Entry} {options : ScanOptions} {rootPath generatedAt generatedAt' : String}
  {findings findings' : Findings} {path : String} {bytes : List UInt8}

/-! ## Tracked files -/

/-- **`Faultless tree`** — a folder without faults, below which names are not empty, hold no slash
and are distinct within each folder. -/
structure Faultless (tree : Entry) : Prop where
  folder : tree.isFolder = true
  formed : tree.WellFormed
  named : tree.Named
  free : tree.FaultFree

/-- **`Tracks options tree path bytes`** — a path leads to a file of these bytes, outside the
excluded folders and with an active extension. -/
def Tracks (options : ScanOptions) (tree : Entry) (path : String) (bytes : List UInt8) : Prop :=
  (∃ names content, tree.HoldsContent names content ∧ content.toBytes = bytes ∧
      "/".intercalate names = path) ∧
    Walk.Outside options.excludeFolders.toList path ∧
    Text.lower (Path.suffix path) ∈ options.activeExtensions.toList.map Text.lower

/-- A path that is tracked leads to its file. -/
theorem Tracks.holdsContent (h : Tracks options tree path bytes) (htree : Faultless tree) :
    ∃ content, tree.HoldsContent (Text.splitAt '/' path) content ∧ content.toBytes = bytes := by
  obtain ⟨⟨names, content, hcontent, hbytes, rfl⟩, -, -⟩ := h
  have hmeets : tree.Meets names := Or.inl ⟨content.size, content, hcontent, rfl⟩
  rw [Walk.splitAt_of_meets htree.formed htree.named hmeets (hcontent.ne_nil htree.folder)]
  exact ⟨content, hcontent, hbytes⟩

/-- The tracked files of a listing, as they are found. -/
theorem tracked_eq_map (options : ScanOptions) (htree : Faultless tree) :
    (sortedOut options (Walk.listing tree) false).tracked =
      ((Walk.listing tree).filter fun f => Walk.IsKept options.excludeFolders.toList f ∧
        Text.lower (Path.suffix f.path) ∈ options.activeExtensions.toList.map Text.lower).map
          Walk.Found.tracked :=
  Walk.tracked_eq fun _ hf hsize =>
    Walk.segment_ne_empty htree.folder htree.formed htree.named hf hsize

/-- **The walk tracks what is to be tracked.** -/
theorem mem_tracked_iff (htree : Faultless tree) {file : TrackedFile} :
    file ∈ (sortedOut options (Walk.listing tree) false).tracked ↔
      ∃ path bytes, Tracks options tree path bytes ∧ Walk.trackedFile (path, bytes.length) = file := by
  have hlists := Walk.lists_listing htree.folder htree.formed htree.named
  rw [tracked_eq_map options htree, List.mem_map]
  simp only [List.mem_filter, decide_eq_true_iff]
  constructor
  · rintro ⟨⟨path, size⟩, ⟨hmem, ⟨hsize, houtside⟩, hactive⟩, rfl⟩
    obtain ⟨count, rfl⟩ := Option.isSome_iff_exists.mp hsize
    obtain ⟨names, ⟨content, hcontent, rfl⟩, hpath⟩ := (hlists.files path count).mp hmem
    refine ⟨path, content.toBytes, ⟨⟨names, content, hcontent, rfl, hpath⟩, houtside, hactive⟩, ?_⟩
    rw [Content.length_toBytes]
    rfl
  · rintro ⟨path, bytes, ⟨⟨names, content, hcontent, rfl, hpath⟩, houtside, hactive⟩, rfl⟩
    have hmem := (hlists.files path content.size).mpr ⟨names, ⟨content, hcontent, rfl⟩, hpath⟩
    refine ⟨⟨path, some content.size⟩, ⟨hmem, ⟨rfl, houtside⟩, hactive⟩, ?_⟩
    rw [Content.length_toBytes]
    rfl

/-- Tracked files are in order of their paths, segment by segment. -/
theorem increasing_tracked (htree : Faultless tree) :
    (sortedOut options (Walk.listing tree) false).tracked.Pairwise fun a b =>
      Text.splitAt '/' a.path < Text.splitAt '/' b.path := by
  rw [tracked_eq_map options htree, List.pairwise_map]
  exact (Walk.increasing_listing htree.formed).filter _

/-- **Trees with the same tracked files track them in the same order.** -/
theorem tracked_congr (htree : Faultless tree) (htree' : Faultless tree')
    (htracks : ∀ path bytes, Tracks options tree path bytes ↔ Tracks options tree' path bytes) :
    (sortedOut options (Walk.listing tree') false).tracked =
      (sortedOut options (Walk.listing tree) false).tracked := by
  let earlier (a b : TrackedFile) : Prop := Text.splitAt '/' a.path < Text.splitAt '/' b.path
  have : Std.Irrefl earlier := ⟨fun a => List.lt_irrefl _⟩
  have : Std.Antisymm earlier :=
    ⟨fun a b hab hba => absurd (List.lt_trans hab hba) (List.lt_irrefl _)⟩
  refine List.Pairwise.eq_of_mem_iff (r := earlier) (increasing_tracked htree')
    (increasing_tracked htree) fun file => ?_
  rw [mem_tracked_iff htree', mem_tracked_iff htree]
  simp only [htracks]

/-! ## What tracked files import -/

/-- **A tracked file imports the same in every tree that tracks it with the same bytes.** -/
theorem importsIn_congr (htree : Faultless tree) (htree' : Faultless tree')
    (h : Tracks options tree path bytes) (h' : Tracks options tree' path bytes) :
    Reading.importsIn tree' (Walk.trackedFile (path, bytes.length)) =
      Reading.importsIn tree (Walk.trackedFile (path, bytes.length)) := by
  let file := Walk.trackedFile (path, bytes.length)
  obtain ⟨content, hcontent, hbytes⟩ := h.holdsContent htree
  obtain ⟨content', hcontent', hbytes'⟩ := h'.holdsContent htree'
  have hhere : tree.HoldsContent (Text.splitAt '/' file.path) content := hcontent
  have hthere : tree'.HoldsContent (Text.splitAt '/' file.path) content' := hcontent'
  show Reading.importsIn tree' file = Reading.importsIn tree file
  rw [Reading.importsIn_of_holdsContent htree.formed htree.free hhere,
    Reading.importsIn_of_holdsContent htree'.formed htree'.free hthere,
    Reading.contentSpecifiers_eq_of_toBytes (hbytes'.trans hbytes.symm)]

/-- In a tree without faults every read ends. -/
theorem outcome_ne_never (htree : Faultless tree) :
    ∀ job ∈ Reading.jobsOf tree (sortedOut options (Walk.listing tree) false).tracked,
      job.outcome ≠ .never := by
  intro job hjob
  obtain ⟨file, hfile, rfl⟩ := List.mem_map.mp hjob
  obtain ⟨name, faults, content, hreaches⟩ :=
    Walk.exists_reaches_of_mem_tracked htree.formed (List.mem_of_mem_filter hfile)
  show Reading.Outcome.ofEntry (tree.at? (Text.splitAt '/' file.path)) ≠ .never
  rw [Entry.at?_of_reaches hreaches htree.formed]
  cases hreaches.faultFree htree.free
  exact Reading.Outcome.noConfusion

/-! ## What comes of it -/

/-- The bytes of all files of a tree. -/
def totalSize (tree : Entry) : Nat :=
  ((Walk.listing tree).filterMap (·.size)).sum

/-- The total of a walk counts the bytes of all files. -/
theorem totalSize_sortedOut (htree : Faultless tree) :
    (sortedOut options (Walk.listing tree) false).totalSize = totalSize tree :=
  (Walk.sortsOut_classify fun _ hf hsize =>
    Walk.segment_ne_empty htree.folder htree.formed htree.named hf hsize).totalSize

/-- **`Agrees size outcome outcome'`** — where there is a report, the other outcome is a report with
the same analysis, unless the size of its tree is too big to be shown. -/
def Agrees (size : Nat) (outcome outcome' : Except ScanFault Report) : Prop :=
  ∀ report, outcome = .ok report →
    (∃ report', outcome' = .ok report' ∧ report.SameAnalysis report') ∨
      outcome' = .error (.size .tooBig) ∧ megabytes (size : Int) = .error .tooBig

/-- A scan that is not called off comes to the report of what it found. -/
theorem conclude_of_open (hopen : findings.cancelled = false) :
    conclude rootPath generatedAt options findings =
      (Report.ofSpecifiers rootPath generatedAt (totalsOf findings.walk) findings.walk.tracked
        findings.specifiers (choiceOf options) false).mapError .size := by
  unfold conclude
  rw [hopen]
  rfl

/-- **Scans of trees with the same tracked files agree**, in whatever order they read. -/
theorem conclude_agrees (htree : Faultless tree) (htree' : Faultless tree')
    (htracks : ∀ path bytes, Tracks options tree path bytes ↔ Tracks options tree' path bytes)
    (h : Gathers tree options findings) (hopen : findings.cancelled = false)
    (h' : Gathers tree' options findings') (hopen' : findings'.cancelled = false) :
    Agrees (totalSize tree') (conclude rootPath generatedAt options findings)
      (conclude rootPath generatedAt' options findings') := by
  have htracked : findings'.walk.tracked = findings.walk.tracked := by
    rw [h.walk, h'.walk]
    exact tracked_congr htree htree' htracks
  have himports : ∀ file ∈ findings.walk.tracked,
      findings'.specifiers.of file.path = findings.specifiers.of file.path := by
    intro file hfile
    rw [h.imports htree.formed hopen hfile,
      h'.imports htree'.formed hopen' (htracked.symm ▸ hfile)]
    rw [h.walk] at hfile
    obtain ⟨path, bytes, htracks₁, rfl⟩ := (mem_tracked_iff htree).mp hfile
    exact importsIn_congr htree htree' htracks₁ ((htracks path bytes).mp htracks₁)
  have hsize : (totalsOf findings'.walk).totalSize = (totalSize tree' : Int) := by
    show ((findings'.walk.totalSize : Nat) : Int) = _
    rw [h'.walk, totalSize_sortedOut htree']
  -- the second report is that of the first findings with the totals of the second walk
  have hsame : Report.ofSpecifiers rootPath generatedAt' (totalsOf findings'.walk)
        findings'.walk.tracked findings'.specifiers (choiceOf options) false =
      Report.ofSpecifiers rootPath generatedAt' (totalsOf findings'.walk)
        findings.walk.tracked findings.specifiers (choiceOf options) false := by
    unfold Report.ofSpecifiers
    rw [htracked, ImportGraph.ofFiles_congr rootPath himports]
  intro report hreport
  rw [conclude_of_open hopen] at hreport
  cases hfirst : Report.ofSpecifiers rootPath generatedAt (totalsOf findings.walk)
      findings.walk.tracked findings.specifiers (choiceOf options) false with
  | error fault =>
      rw [hfirst] at hreport
      cases hreport
  | ok first =>
      rw [hfirst] at hreport
      cases hreport
      rw [conclude_of_open hopen', hsame, Report.ofSpecifiers_totals hfirst, hsize]
      cases hmegabytes : megabytes (totalSize tree' : Int) with
      | error fault =>
          cases megabytes_error hmegabytes
          exact Or.inr ⟨rfl, rfl⟩
      | ok sizeMb => exact Or.inl ⟨_, rfl, rfl⟩

/-- **What is not tracked does not show in the analysis.**  Scans at one path of two trees with the
same tracked files agree, whatever else is in the trees and in whatever order their files are
read. -/
theorem run_untracked {fs fs' : FileSystem} {given given' : Option String}
    (generatedAt generatedAt' : String) (raw : ScanOptions.Raw) (htree : Faultless tree)
    (htree' : Faultless tree') (hleads : LeadsTo fs given rootPath tree)
    (hleads' : LeadsTo fs' given' rootPath tree')
    (htracks : ∀ path bytes, Tracks (ScanOptions.ofRaw raw).1 tree path bytes ↔
      Tracks (ScanOptions.ofRaw raw).1 tree' path bytes) :
    Agrees (totalSize tree') (run fs given generatedAt (ScanOptions.ofRaw raw).1 never).1
        (run fs' given' generatedAt' (ScanOptions.ofRaw raw).1 never).1 ∧
      ∀ findings findings', Gathers tree (ScanOptions.ofRaw raw).1 findings →
        findings.cancelled = false → Gathers tree' (ScanOptions.ofRaw raw).1 findings' →
        findings'.cancelled = false →
        Agrees (totalSize tree')
          (conclude rootPath generatedAt (ScanOptions.ofRaw raw).1 findings)
          (conclude rootPath generatedAt' (ScanOptions.ofRaw raw).1 findings') := by
  have hworkers : 1 ≤ (ScanOptions.ofRaw raw).1.maxWorkers := by
    show 1 ≤ max 1 raw.maxWorkers
    omega
  refine ⟨?_, fun findings findings' h hopen h' hopen' =>
    conclude_agrees htree htree' htracks h hopen h' hopen'⟩
  rw [run_of_leadsTo hleads, run_of_leadsTo hleads', folder_fst, folder_fst]
  exact conclude_agrees htree htree' htracks
    (gathers_never htree.formed hworkers (Or.inr (outcome_ne_never htree)))
    (gather_never_cancelled _ _)
    (gathers_never htree'.formed hworkers (Or.inr (outcome_ne_never htree')))
    (gather_never_cancelled _ _)

/-! ## Two projects with one tracked file -/

/-- A text that imports a file in an excluded folder. -/
def secludedImport : Content :=
  .bytes "import \"./build/b\"\n".toUTF8.toList

/-- A project in which the imported file is there. -/
def builtProject : Entry :=
  .folder "p" Faults.none [
    .file "a.ts" Faults.none secludedImport,
    .folder "build" Faults.none [.file "b.ts" Faults.none (.zeros 5)]]

/-- A project in which it is not, with an empty folder, a file that is not analysed and a link. -/
def freshProject : Entry :=
  .folder "p" Faults.none [
    .folder "docs" Faults.none [],
    .link "link.ts" Faults.none "a.ts",
    .file "a.ts" Faults.none secludedImport,
    .file "notes.txt" Faults.none (.zeros 7)]

theorem faultless_builtProject : Faultless builtProject where
  folder := rfl
  formed := by
    unfold builtProject
    refine Entry.WellFormed.folder _ _ (by decide) (by simp [Entry.name]) ?_
    simp only [List.forall_mem_cons]
    refine ⟨.file _ _ _, .folder _ _ (by decide) (by simp [Entry.name]) ?_, by simp⟩
    exact List.forall_mem_singleton.mpr (.file _ _ _)
  named := by
    unfold builtProject
    refine Entry.Named.folder _ _ (by simp [Entry.name]) ?_
    simp only [List.forall_mem_cons]
    refine ⟨.file _ _ _, .folder _ _ (by simp [Entry.name]) ?_, by simp⟩
    exact List.forall_mem_singleton.mpr (.file _ _ _)
  free := by
    unfold builtProject
    refine Entry.FaultFree.folder _ ?_
    simp only [List.forall_mem_cons]
    refine ⟨.file _ _, .folder _ ?_, by simp⟩
    exact List.forall_mem_singleton.mpr (.file _ _)

theorem faultless_freshProject : Faultless freshProject where
  folder := rfl
  formed := by
    unfold freshProject
    refine Entry.WellFormed.folder _ _ (by decide) (by simp [Entry.name]) ?_
    simp only [List.forall_mem_cons]
    exact ⟨.folder _ _ (by decide) (by simp) (by simp), .link _ _ _, .file _ _ _, .file _ _ _,
      by simp⟩
  named := by
    unfold freshProject
    refine Entry.Named.folder _ _ (by simp [Entry.name]) ?_
    simp only [List.forall_mem_cons]
    exact ⟨.folder _ _ (by simp) (by simp), .link _ _ _, .file _ _ _, .file _ _ _, by simp⟩
  free := by
    unfold freshProject
    refine Entry.FaultFree.folder _ ?_
    simp only [List.forall_mem_cons]
    exact ⟨.folder _ (by simp), .link _ _, .file _ _, .file _ _, by simp⟩

/-- The file that both projects have is tracked. -/
theorem tracks_secludedImport (h : tree.HoldsContent ["a.ts"] secludedImport) :
    Tracks (ScanOptions.ofRaw (.default none)).1 tree "a.ts" secludedImport.toBytes :=
  ⟨⟨["a.ts"], secludedImport, h, rfl, by decide⟩, by decide +kernel, by decide +kernel⟩

theorem tracks_builtProject :
    Tracks (ScanOptions.ofRaw (.default none)).1 builtProject path bytes ↔
      path = "a.ts" ∧ bytes = secludedImport.toBytes := by
  constructor
  · rintro ⟨⟨names, content, hcontent, rfl, rfl⟩, houtside, -⟩
    obtain ⟨-, child, hchild, -, rest, rfl, hrest⟩ := holdsContent_folder_iff.mp hcontent
    rcases List.mem_cons.mp hchild with rfl | hchild
    · obtain ⟨rfl, rfl⟩ := holdsContent_file_iff.mp hrest
      exact ⟨by decide, rfl⟩
    · -- the other file is in an excluded folder
      rw [List.mem_singleton.mp hchild, holdsContent_folder_iff] at hrest
      obtain ⟨-, inner, hinner, -, rest, rfl, hrest⟩ := hrest
      rw [List.mem_singleton.mp hinner] at hrest houtside
      obtain ⟨rfl, rfl⟩ := holdsContent_file_iff.mp hrest
      rw [List.mem_singleton.mp hchild] at houtside
      exact absurd houtside (by decide +kernel)
  · rintro ⟨rfl, rfl⟩
    exact tracks_secludedImport (holdsContent_folder_iff.mpr
      ⟨rfl, _, List.mem_cons_self, rfl, [], rfl, holdsContent_file_iff.mpr ⟨rfl, rfl⟩⟩)

theorem tracks_freshProject :
    Tracks (ScanOptions.ofRaw (.default none)).1 freshProject path bytes ↔
      path = "a.ts" ∧ bytes = secludedImport.toBytes := by
  constructor
  · rintro ⟨⟨names, content, hcontent, rfl, rfl⟩, -, hactive⟩
    obtain ⟨-, child, hchild, -, rest, rfl, hrest⟩ := holdsContent_folder_iff.mp hcontent
    simp only [List.mem_cons, List.not_mem_nil, or_false] at hchild
    rcases hchild with rfl | rfl | rfl | rfl
    · obtain ⟨-, inner, hinner, -⟩ := holdsContent_folder_iff.mp hrest
      cases hinner
    · exact absurd hrest not_holdsContent_link
    · obtain ⟨rfl, rfl⟩ := holdsContent_file_iff.mp hrest
      exact ⟨by decide, rfl⟩
    · -- the other file has an extension that is not active
      obtain ⟨rfl, rfl⟩ := holdsContent_file_iff.mp hrest
      exact absurd hactive (by decide +kernel)
  · rintro ⟨rfl, rfl⟩
    exact tracks_secludedImport (holdsContent_folder_iff.mpr
      ⟨rfl, .file "a.ts" Faults.none secludedImport, by simp, rfl, [], rfl,
        holdsContent_file_iff.mpr ⟨rfl, rfl⟩⟩)

theorem run_untracked_freshProject :
    (∀ path bytes, Tracks (ScanOptions.ofRaw (.default none)).1 builtProject path bytes ↔
        Tracks (ScanOptions.ofRaw (.default none)).1 freshProject path bytes) ∧
      Agrees (totalSize freshProject)
        (run (holding builtProject) (some "/p") "then" (ScanOptions.ofRaw (.default none)).1
          never).1
        (run (holding freshProject) (some "/p") "now" (ScanOptions.ofRaw (.default none)).1
          never).1 := by
  have htracks : ∀ path bytes,
      Tracks (ScanOptions.ofRaw (.default none)).1 builtProject path bytes ↔
        Tracks (ScanOptions.ofRaw (.default none)).1 freshProject path bytes :=
    fun path bytes => tracks_builtProject.trans tracks_freshProject.symm
  exact ⟨htracks, (run_untracked "then" "now" (.default none) faultless_builtProject
    faultless_freshProject (leadsTo_holding _ _) (leadsTo_holding _ _) htracks).1⟩

end Scan

end SourceAtlas
