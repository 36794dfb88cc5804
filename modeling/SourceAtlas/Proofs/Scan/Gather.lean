/-
# SourceAtlas.Proofs.Scan.Gather — what a scan gathers, and what it concludes.

A scan gathers a walk and what the tracked files import, and concludes its outcome from these alone
(`folder_fst`).  What it gathers is told here for a signal that is set before anything is read, for
one that outlasts the walk, and for none.
-/
import SourceAtlas.Proofs.Reading.Rounds
import SourceAtlas.Proofs.Report.Consistent
import SourceAtlas.Proofs.Walk.Chunks
import SourceAtlas.Scan

namespace SourceAtlas.Scan

open Signal

variable {root : Entry} {rootPath generatedAt : String} {options : ScanOptions} {n : Nat}

/-! ## Gathering -/

/-- What the walk below a root comes to when it has yielded some paths. -/
def sortedOut (options : ScanOptions) (found : List Found) (cancelled : Bool) : Walk.Result :=
  Walk.classify options.excludeFolders.toList options.activeExtensions.toList found cancelled

/-- Read what is tracked when the whole listing is known, unless a first look finds the signal
set. -/
def readListed (root : Entry) (options : ScanOptions) (signal : Signal) : SpecifierMap × Signal :=
  if signal.look.1 then ([], signal.look.2)
  else
    Reading.readAll (Reading.jobsOf root (sortedOut options (Walk.listing root) false).tracked)
      options.maxWorkers.toNat options.readTimeout signal.look.2

/-- What is gathered when the whole listing is known and a last look follows the reading. -/
def listed (root : Entry) (options : ScanOptions) (read : SpecifierMap × Signal) :
    Findings × Signal :=
  (⟨sortedOut options (Walk.listing root) false, read.1, read.2.look.1⟩, read.2.look.2)

/-- A scan without a signal goes through the whole listing. -/
theorem gather_never :
    gather root options never = listed root options (readListed root options never) := by
  unfold gather
  rw [Walk.files_never]
  rfl

/-- There is a number of looks that reading what is listed needs. -/
theorem exists_needs_readListed (root : Entry) (options : ScanOptions) :
    ∃ looks, Needs (readListed root options) (1 + looks) := by
  let jobs := Reading.jobsOf root (sortedOut options (Walk.listing root) false).tracked
  obtain ⟨looks, h⟩ :=
    Reading.exists_needs_readAll jobs options.maxWorkers.toNat options.readTimeout
  let next (early : Bool) (signal : Signal) : SpecifierMap × Signal :=
    if early then ([], signal)
    else Reading.readAll jobs options.maxWorkers.toNat options.readTimeout signal
  have hset : ∀ early, (next early (after 0)).2 = after 0 := by
    intro early
    cases early with
    | true => rfl
    | false => exact h.short 0 (Nat.zero_le looks)
  have hnext : Needs (next never.look.1) looks := h
  exact ⟨looks, needs_look.bind hnext hset⟩

/-- A scan without a signal does not count as called off. -/
theorem gather_never_cancelled (root : Entry) (options : ScanOptions) :
    (gather root options never).1.cancelled = false := by
  obtain ⟨looks, h⟩ := exists_needs_readListed root options
  rw [gather_never]
  show (readListed root options never).2.look.1 = false
  rw [h.unset]
  rfl

/-! ## Concluding -/

/-- The outcome of a scan is concluded from what it gathers. -/
theorem folder_fst (root : Entry) (rootPath generatedAt : String) (options : ScanOptions)
    (signal : Signal) :
    (folder root rootPath generatedAt options signal).1 =
      conclude rootPath generatedAt options (gather root options signal).1 := rfl

/-- A scan without a report was called off where no partial report is wanted, or a size cannot be
shown. -/
theorem conclude_error {findings : Findings} {fault : ScanFault}
    (h : conclude rootPath generatedAt options findings = .error fault) :
    (∃ size, fault = .size size) ∨
      findings.cancelled = true ∧ options.partialOnCancel = false ∧ fault = .cancelled rootPath := by
  unfold conclude at h
  split at h
  · rename_i hoff
    rw [Bool.and_eq_true, Bool.not_eq_true'] at hoff
    cases h
    exact Or.inr ⟨hoff.1, hoff.2, rfl⟩
  · cases hreport : Report.ofSpecifiers rootPath generatedAt (totalsOf findings.walk)
        findings.walk.tracked findings.specifiers (choiceOf options) findings.cancelled with
    | error size =>
        rw [hreport] at h
        cases h
        exact Or.inl ⟨size, rfl⟩
    | ok report =>
        rw [hreport] at h
        cases h

/-- A scan that is not called off fails for a size alone. -/
theorem exists_size_of_conclude_error {findings : Findings} (h : findings.cancelled = false)
    {fault : ScanFault} (hfault : conclude rootPath generatedAt options findings = .error fault) :
    ∃ size, fault = .size size := by
  rcases conclude_error hfault with hsize | ⟨hoff, -⟩
  · exact hsize
  · rw [h] at hoff
    cases hoff

/-- A report is made from what was found. -/
theorem ofSpecifiers_of_conclude_ok {findings : Findings} {report : Report}
    (h : conclude rootPath generatedAt options findings = .ok report) :
    Report.ofSpecifiers rootPath generatedAt (totalsOf findings.walk) findings.walk.tracked
      findings.specifiers (choiceOf options) findings.cancelled = .ok report := by
  unfold conclude at h
  split at h
  · cases h
  · cases hreport : Report.ofSpecifiers rootPath generatedAt (totalsOf findings.walk)
        findings.walk.tracked findings.specifiers (choiceOf options) findings.cancelled with
    | error fault =>
        rw [hreport] at h
        cases h
    | ok report' =>
        rw [hreport] at h
        cases h
        rfl

/-- The main file of a report is selected from the tracked files. -/
theorem mainFile_of_conclude_ok {findings : Findings} {report : Report}
    (h : conclude rootPath generatedAt options findings = .ok report) :
    report.mainFile =
      selectMain? (findings.walk.tracked.map
        (ImportGraph.ofFiles rootPath findings.walk.tracked findings.specifiers).finalize)
        options.mainFile :=
  (Report.assemble_ok (ofSpecifiers_of_conclude_ok h)).1

/-- The report of what was found names the root. -/
theorem rootPath_of_conclude_ok {findings : Findings} {report : Report}
    (h : conclude rootPath generatedAt options findings = .ok report) :
    report.rootPath = rootPath := by
  have hassemble := ofSpecifiers_of_conclude_ok h
  unfold Report.ofSpecifiers Report.assemble at hassemble
  simp only [bind_eq_ok] at hassemble
  obtain ⟨mainSize, -, critical, -, totalMb, -, analyzedMb, -, nodes, -, hreport⟩ := hassemble
  cases hreport
  rfl

end SourceAtlas.Scan
