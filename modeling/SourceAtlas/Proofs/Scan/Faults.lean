/-
# SourceAtlas.Proofs.Scan.Faults — faults take away what they hide and nothing else.

A fault can strike at four points: a folder is not listed, an entry is not examined, a file is not
read, or a read never ends.  The outcome of a scan under any faults is the outcome for the mended
tree, which has no faults and lacks only what they hide (`run_mended`).  The walk of both trees
comes to the same files, and each of them imports the same: a file that is not read imports nothing,
and so does the content that it has in the mended tree.
-/
import SourceAtlas.Proofs.Scan.Readings
import SourceAtlas.Proofs.Walk.Mend

namespace SourceAtlas

namespace Scan

open Signal

variable {root : Entry} {rootPath generatedAt : String} {options : ScanOptions}
  {blank : Content → Content}

/-! ## What is read -/

/-- A file imports the same in a tree and in the mended tree. -/
theorem importsIn_mended
    (hblank : ∀ language content,
      Reading.contentSpecifiers language (blank content) = OrderedSet.empty)
    (hroot : root.WellFormed) {file : TrackedFile}
    (h : ∃ name faults content,
      root.Reaches (Text.splitAt '/' file.path) (.file name faults content)) :
    Reading.importsIn (root.mended blank) file = Reading.importsIn root file := by
  obtain ⟨name, faults, content, hreaches⟩ := h
  unfold Reading.importsIn
  rw [Entry.at?_of_reaches hreaches hroot, Entry.at?_of_reaches hreaches.mended hroot.mended,
    Entry.mended]
  split
  · rfl
  · -- a read that hangs or fails imports nothing, and neither does what is put in its place
    cases hhang : faults.hang with
    | true =>
        simp [Reading.Outcome.ofEntry, Reading.Outcome.specifiers?, Faults.none, hhang, hblank]
    | false =>
        cases hread : faults.read with
        | true =>
            simp [Reading.Outcome.ofEntry, Reading.Outcome.specifiers?, Faults.none, hhang, hread,
              hblank]
        | false =>
            simp [Reading.Outcome.ofEntry, Reading.Outcome.specifiers?, Faults.none, hhang, hread]

/-! ## What comes of it -/

/-- **Scans of a tree and of the mended tree come to the same**, in whatever order they read. -/
theorem conclude_mended (hsize : ∀ content, (blank content).size = content.size)
    (hblank : ∀ language content,
      Reading.contentSpecifiers language (blank content) = OrderedSet.empty)
    (hroot : root.WellFormed) {findings findings' : Findings}
    (h : Gathers root options findings) (hopen : findings.cancelled = false)
    (h' : Gathers (root.mended blank) options findings') (hopen' : findings'.cancelled = false) :
    conclude rootPath generatedAt options findings' =
      conclude rootPath generatedAt options findings := by
  have hsized := Walk.sizedFiles_listing_mended hsize root
  -- the walks of both trees differ in the number of failures alone
  have hsame : sortedOut options (Walk.listing (root.mended blank)) false =
      { sortedOut options (Walk.listing root) false with
        skipped := (sortedOut options (Walk.listing (root.mended blank)) false).skipped } :=
    Walk.classify_congr hsized
  have htracked : findings'.walk.tracked = findings.walk.tracked := by
    rw [h.walk, h'.walk, hsame]
  refine conclude_congr htracked ?_ ?_ (hopen'.trans hopen.symm)
  · rw [h.walk, h'.walk, hsame]
    rfl
  · intro file hfile
    rw [h.imports hroot hopen hfile, h'.imports hroot.mended hopen' (htracked ▸ hfile)]
    have hlisted : file ∈ (sortedOut options (Walk.listing root) false).tracked := h.walk ▸ hfile
    exact importsIn_mended hblank hroot (Walk.exists_reaches_of_mem_tracked hroot hlisted)

/-- A root leads to a tree at a path. -/
def LeadsTo (fs : FileSystem) (root : Option String) (rootPath : String) (tree : Entry) : Prop :=
  ∃ place, fs.rootPlace root = .ok place ∧ fs.top.at? place = some tree ∧
    FileSystem.pathOf place = rootPath

theorem run_of_leadsTo {fs : FileSystem} {given : Option String} {tree : Entry}
    (h : LeadsTo fs given rootPath tree) (generatedAt : String) (options : ScanOptions)
    (signal : Signal) :
    run fs given generatedAt options signal = folder tree rootPath generatedAt options signal := by
  obtain ⟨place, hplace, htree, hpath⟩ := h
  unfold run
  rw [hplace]
  show folder ((fs.top.at? place).getD default) (FileSystem.pathOf place) generatedAt options
    signal = _
  rw [htree, hpath]
  rfl

/-- **Faults only take away, and only what they hide.**  Whatever faults a tree has, its outcome is
the outcome for the mended tree, in whatever order its files are read; `blank` may give a file that
is not read any content that has its size and imports nothing.  No fault of an entry makes the scan
fail. -/
theorem run_mended {fs fs' : FileSystem} {given given' : Option String} {tree : Entry}
    (generatedAt : String) (raw : ScanOptions.Raw) (blank : Content → Content)
    (hlimits : Reading.limits raw.readTimeout = true)
    (hsize : ∀ content, (blank content).size = content.size)
    (hblank : ∀ language content,
      Reading.contentSpecifiers language (blank content) = OrderedSet.empty)
    (hformed : tree.WellFormed) (htree : LeadsTo fs given rootPath tree)
    (hmended : LeadsTo fs' given' rootPath (tree.mended blank)) :
    (tree.mended blank).FaultFree ∧
      (run fs given generatedAt (ScanOptions.ofRaw raw).1 never).1 =
        (run fs' given' generatedAt (ScanOptions.ofRaw raw).1 never).1 ∧
      (∀ findings, Gathers tree (ScanOptions.ofRaw raw).1 findings → findings.cancelled = false →
        conclude rootPath generatedAt (ScanOptions.ofRaw raw).1 findings =
          (run fs' given' generatedAt (ScanOptions.ofRaw raw).1 never).1) ∧
      ∀ fault, (run fs given generatedAt (ScanOptions.ofRaw raw).1 never).1 = .error fault →
        ∃ size, fault = .size size := by
  have hworkers : 1 ≤ (ScanOptions.ofRaw raw).1.maxWorkers := by
    show 1 ≤ max 1 raw.maxWorkers
    exact Int.le_max_left _ _
  have hany : ∀ findings, Gathers tree (ScanOptions.ofRaw raw).1 findings →
      findings.cancelled = false →
      conclude rootPath generatedAt (ScanOptions.ofRaw raw).1 findings =
        (run fs' given' generatedAt (ScanOptions.ofRaw raw).1 never).1 := by
    intro findings hgathers hopen
    rw [run_of_leadsTo hmended, folder_fst]
    exact (conclude_mended hsize hblank hformed hgathers hopen
      (gathers_never hformed.mended hworkers (Or.inl hlimits)) (gather_never_cancelled _ _)).symm
  refine ⟨Entry.faultFree_mended tree, ?_, hany, ?_⟩
  · rw [run_of_leadsTo htree, folder_fst]
    exact hany _ (gathers_never hformed hworkers (Or.inl hlimits)) (gather_never_cancelled _ _)
  · intro fault hfault
    rw [run_of_leadsTo htree, folder_fst] at hfault
    exact exists_size_of_conclude_error (gather_never_cancelled _ _) hfault

/-! ## A project with every kind of fault -/

/-- A project in which every kind of fault strikes. -/
def faultyProject : Entry :=
  .folder "p" Faults.none [
    .file "a.ts" Faults.none (.bytes "import \"./b\"\n".toUTF8.toList),
    .file "b.ts" { Faults.none with read := true } (.bytes "import \"./a\"\n".toUTF8.toList),
    .file "c.ts" { Faults.none with hang := true } (.zeros 20),
    .folder "hidden" { Faults.none with examine := true } [.file "d.ts" Faults.none (.zeros 5)],
    .folder "locked" { Faults.none with list := true } [.file "e.ts" Faults.none (.zeros 5)]]

/-- As many zero bytes as a content has bytes. -/
def zeroed (content : Content) : Content :=
  .zeros content.size

/-- A file system that holds one folder. -/
def holding (folder : Entry) : FileSystem :=
  ⟨.folder "" Faults.none [folder], [], fun _ => none⟩

theorem wellFormed_faultyProject : faultyProject.WellFormed := by
  unfold faultyProject
  refine Entry.WellFormed.folder _ _ (by decide) ?_ ?_
  · simp [Entry.name]
  · simp only [List.forall_mem_cons]
    refine ⟨.file _ _ _, .file _ _ _, .file _ _ _, ?_, ?_, by simp⟩
    all_goals
      refine .folder _ _ (by decide) (by simp [Entry.name]) ?_
      simp only [List.forall_mem_singleton]
      exact .file _ _ _

theorem place?_holding (faults : Faults) (entries : List Entry) :
    (holding (.folder "p" faults entries)).place? "/p" = some ["p"] := by
  have hsegments : FileSystem.segmentsOf "/p" = ["p"] := by decide
  have habsolute : Path.isAbsolute "/p".toList = true := by decide
  have hentry : (holding (.folder "p" faults entries)).top.at? ["p"] =
      some (.folder "p" faults entries) := rfl
  have hfollow : FileSystem.follow (holding (.folder "p" faults entries)).top
      FileSystem.linkLimit [] ["p"] = .ok (.present ["p"]) := by
    rw [FileSystem.follow]
    simp only [List.reverse_singleton, hentry]
    rw [if_neg (by decide), FileSystem.follow]
    rfl
  unfold FileSystem.place? FileSystem.locate
  rw [hsegments, habsolute]
  simp only [if_true, hfollow]

theorem rootPlace_holding (faults : Faults) (entries : List Entry) :
    (holding (.folder "p" faults entries)).rootPlace (some "/p") = .ok ["p"] := by
  have hblank : isBlankPath "/p" = false := by decide
  have hhome : (holding (.folder "p" faults entries)).expandHome "/p" = .ok "/p" := rfl
  unfold FileSystem.rootPlace
  simp only [hblank, hhome, bind, Except.bind, place?_holding]
  rfl

theorem leadsTo_holding (faults : Faults) (entries : List Entry) :
    LeadsTo (holding (.folder "p" faults entries)) (some "/p") "/p"
      (.folder "p" faults entries) :=
  ⟨["p"], rootPlace_holding faults entries, rfl, rfl⟩

theorem run_mended_faultyProject :
    (faultyProject.mended zeroed).FaultFree ∧
      (run (holding faultyProject) (some "/p") "" (ScanOptions.ofRaw (.default none)).1 never).1 =
        (run (holding (faultyProject.mended zeroed)) (some "/p") ""
          (ScanOptions.ofRaw (.default none)).1 never).1 ∧
      (∀ findings, Gathers faultyProject (ScanOptions.ofRaw (.default none)).1 findings →
        findings.cancelled = false →
        conclude "/p" "" (ScanOptions.ofRaw (.default none)).1 findings =
          (run (holding (faultyProject.mended zeroed)) (some "/p") ""
            (ScanOptions.ofRaw (.default none)).1 never).1) ∧
      ∀ fault,
        (run (holding faultyProject) (some "/p") "" (ScanOptions.ofRaw (.default none)).1 never).1 =
            .error fault →
          ∃ size, fault = .size size := by
  have hmended : LeadsTo (holding (faultyProject.mended zeroed)) (some "/p") "/p"
      (faultyProject.mended zeroed) := by
    unfold faultyProject
    rw [Entry.mended]
    exact leadsTo_holding _ _
  exact run_mended "" (.default none) zeroed (by decide) (fun content => rfl)
    (fun language content => rfl) wellFormed_faultyProject (leadsTo_holding _ _) hmended

end Scan

end SourceAtlas
