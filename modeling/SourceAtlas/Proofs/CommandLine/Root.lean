/-
# SourceAtlas.Proofs.CommandLine.Root — the root of a command line and the root of a scan.

A scan takes a root that is not blank and leads to a folder once its `~` is replaced
(`rootPlace_eq_noRoot_iff`).  A command line looks first whether its root leads to a folder as it is
written, and then has the tidy form of it scanned (`exits_one_iff`).  The two differ in three ways,
which `Astray` lists: an empty root is the current folder for a command line only; a root such as
`./` and a blank is blank in its tidy form only; and a `~` is replaced by a scan only.  In no other
way do they differ (`exits_one_iff_noRoot_iff`), and what a command line shows in the end is the
report of the folder that a scan of its root would begin at, an empty root apart.
-/
import SourceAtlas.Proofs.CommandLine.Options
import SourceAtlas.Proofs.FileSystem.Settle
import SourceAtlas.Proofs.Scan.Gather

namespace SourceAtlas

open SourceAtlas.Path Text
open Settings (Host sixProcessors)

variable {fs : FileSystem} {path expanded : String} {place : List String}

/-! ## Roots of a scan -/

namespace FileSystem

/-- A path leads to a folder exactly if there is a place and a folder at it. -/
theorem isFolder_eq (fs : FileSystem) (path : String) :
    fs.isFolder path = (fs.place? path).any fun place => (fs.top.at? place).any (·.isFolder) := by
  unfold isFolder entry?
  cases fs.place? path with
  | none => rfl
  | some place => rfl

theorem isFolder_tidied (fs : FileSystem) (path : String) :
    fs.isFolder (tidied path) = fs.isFolder path := by
  rw [isFolder_eq, isFolder_eq, place?_tidied]

theorem expandHome_tidied (fs : FileSystem) (path : String) :
    fs.expandHome (tidied path) = fs.expandHome path := by
  unfold expandHome
  rw [tidied_tidied]

/-- A path that does not begin with `~` stands for its tidy form. -/
theorem expandHome_eq_tidied (h : beginsWith '~' (tidied path) = false) :
    fs.expandHome path = .ok (tidied path) := by
  unfold expandHome
  simp only
  split
  · rename_i rest heq
    unfold beginsWith at h
    rw [heq] at h
    cases h
  · rfl

theorem expandHome_eq_error {fault : ScanFault} (h : fs.expandHome path = .error fault) :
    fault = .noHome := by
  unfold expandHome at h
  simp only at h
  split at h
  · split at h
    · cases h
    · cases h
      rfl
  · cases h

/-- **What becomes of a root that is not blank.** -/
theorem rootPlace_some (h : isBlankPath path = false) :
    fs.rootPlace (some path) =
      fs.expandHome path >>= fun expanded =>
        if fs.isFolder expanded then .ok ((fs.place? expanded).getD [])
        else .error (.noRoot (some path)) := by
  unfold rootPlace
  simp only [h, Bool.false_eq_true, if_false]
  congr 1
  funext expanded
  rw [isFolder_eq]
  cases fs.place? expanded with
  | none => rfl
  | some place => rfl

/-- **A scan has no root** exactly if the path is blank or leads to no folder when its `~` is
replaced. -/
theorem rootPlace_eq_noRoot_iff :
    (∃ given, fs.rootPlace (some path) = .error (.noRoot given)) ↔
      isBlankPath path = true ∨ ∃ expanded, fs.expandHome path = .ok expanded ∧
        fs.isFolder expanded = false := by
  cases hblank : isBlankPath path with
  | true =>
      refine iff_of_true ⟨some path, ?_⟩ (Or.inl rfl)
      unfold rootPlace
      simp only [hblank, if_true]
  | false =>
      rw [rootPlace_some hblank, or_iff_right Bool.false_ne_true]
      constructor
      · rintro ⟨given, h⟩
        rcases bind_eq_error.mp h with h | ⟨expanded, hexpanded, h⟩
        · cases expandHome_eq_error h
        · refine ⟨expanded, hexpanded, Bool.eq_false_iff.mpr fun hfolder => ?_⟩
          rw [if_pos hfolder] at h
          cases h
      · rintro ⟨expanded, hexpanded, hfolder⟩
        refine ⟨some path, bind_eq_error.mpr (Or.inr ⟨expanded, hexpanded, ?_⟩)⟩
        rw [hfolder]
        rfl

/-- The tidy form of a root that is not blank in either form is as good as the root. -/
theorem rootPlace_tidied_eq_ok_iff (h : isBlankPath path = false)
    (htidied : isBlankPath (tidied path) = false) :
    fs.rootPlace (some (tidied path)) = .ok place ↔ fs.rootPlace (some path) = .ok place := by
  rw [rootPlace_some h, rootPlace_some htidied, bind_eq_ok, bind_eq_ok, expandHome_tidied]
  refine exists_congr fun expanded => and_congr_right fun _ => ?_
  cases fs.isFolder expanded with
  | true => exact Iff.rfl
  | false => exact iff_of_false (fun h => by cases h) (fun h => by cases h)

end FileSystem

/-! ## Blank roots -/

/-- A blank path that is not empty is its own tidy form. -/
theorem tidied_of_isBlankPath (hblank : isBlankPath path = true) (hne : path ≠ "") :
    tidied path = path := by
  have hblanks : ∀ c ∈ path.toList, isBlank c = true := List.all_eq_true.mp hblank
  have hslash : '/' ∉ path.toList := fun hmem => absurd (hblanks '/' hmem) (by decide)
  have htidy : ∀ s ∈ [path.toList], IsTidy s := by
    refine List.forall_mem_singleton.mpr ⟨by simpa using hne, ?_, hslash⟩
    intro hdot
    exact absurd (hblanks '.' (hdot ▸ List.mem_singleton_self '.')) (by decide)
  have hrelative : isAbsolute path.toList = false := by
    refine beq_eq_false_iff_ne.mpr fun hhead => hslash (List.mem_of_mem_head? hhead)
  have hone : joined [path.toList] = path.toList := List.intercalate_singleton
  have hsegments := tidySegments_joined htidy
  rw [hone] at hsegments
  unfold tidied
  rw [tidy_relative hrelative, hsegments, hone]
  exact String.ofList_toList

/-- A blank path begins with no `~`. -/
theorem beginsWith_of_isBlankPath (hblank : isBlankPath path = true) :
    beginsWith '~' path = false := by
  refine beq_eq_false_iff_ne.mpr fun hhead => ?_
  exact absurd (List.all_eq_true.mp hblank '~' (List.mem_of_mem_head? hhead)) (by decide)

namespace Scan

/-- A scan tells that it has no root exactly if its root is none. -/
theorem run_eq_noRoot_iff {root : Option String} {generatedAt : String} {options : ScanOptions}
    {signal : Signal} :
    (∃ given, (run fs root generatedAt options signal).1 = .error (.noRoot given)) ↔
      ∃ given, fs.rootPlace root = .error (.noRoot given) := by
  unfold run
  cases fs.rootPlace root with
  | error fault => exact Iff.of_eq (by simp)
  | ok place =>
      refine iff_of_false ?_ (fun ⟨given, h⟩ => by cases h)
      rintro ⟨given, h⟩
      rcases conclude_error h with ⟨size, hsize⟩ | ⟨-, -, hcancelled⟩
      · cases hsize
      · cases hcancelled

/-- A scan that gives a report began at the place of its root and names it. -/
theorem exists_place_of_run_ok {root : Option String} {generatedAt : String}
    {options : ScanOptions} {signal : Signal} {report : Report}
    (h : (run fs root generatedAt options signal).1 = .ok report) :
    ∃ place, fs.rootPlace root = .ok place ∧ report.rootPath = FileSystem.pathOf place := by
  unfold run at h
  cases hroot : fs.rootPlace root with
  | error fault =>
      rw [hroot] at h
      cases h
  | ok place =>
      rw [hroot] at h
      exact ⟨place, rfl, rootPath_of_conclude_ok h⟩

/-- Two roots that lead to one place are scanned alike. -/
theorem run_congr {root root' : Option String} (h : fs.rootPlace root = .ok place)
    (h' : fs.rootPlace root' = .ok place) (generatedAt : String) (options : ScanOptions)
    (signal : Signal) :
    run fs root generatedAt options signal = run fs root' generatedAt options signal := by
  unfold run
  rw [h, h']

end Scan

/-! ## Runs of a command line -/

namespace CommandLine

variable {host : Host} {arguments : Arguments} {generatedAt : String} {signal : Signal}

/-- The scan that a command line has made, at a time and until a signal. -/
def scanWith (fs : FileSystem) (generatedAt : String) (signal : Signal) (session : Session) :
    Except Halt Report :=
  (session.run fs generatedAt signal).1.mapError .fault

/-- The command line ends with an exit code. -/
def Exits (host : Host) (fs : FileSystem) (generatedAt : String) (signal : Signal)
    (arguments : Arguments) (code : Nat) : Prop :=
  ∃ outcome after, run host fs (scanWith fs generatedAt signal) arguments = .ok (outcome, after) ∧
    outcome.exitCode = code

/-- **`IsServed host fs arguments`** — nothing but the root stands in the way of a command line:
there are options if the root leads to a folder, and the file for the output, if one is named, can
be written. -/
structure IsServed (host : Host) (fs : FileSystem) (arguments : Arguments) : Prop where
  options : fs.isFolder arguments.root = true →
    ∃ options warnings, optionsFor host fs arguments = .ok (options, warnings)
  target : ∀ path ∈ arguments.target?, ∀ content, ∃ after, fs.write path content = .ok after

theorem scanWith_start (root : String) (options : ScanOptions) :
    scanWith fs generatedAt signal (Session.start root options) =
      (Scan.run fs (some root) generatedAt options signal).1.mapError .fault := rfl

/-- What is produced without a report is told, whatever was to be written. -/
theorem deliver_error (production : Production) {failure : Failure}
    (h : production.result = .error failure) :
    deliver fs arguments production =
      (⟨failure.exitCode, "", [failure.message], production.warnings⟩, fs) := by
  unfold deliver
  rw [h]

/-- What is produced is shown or written. -/
theorem exitCode_deliver (hserved : IsServed host fs arguments) (production : Production)
    {text : String} (h : production.result = .ok text) :
    (deliver fs arguments production).1.exitCode = 0 := by
  unfold deliver
  rw [h]
  cases htarget : arguments.target? with
  | none => rfl
  | some path =>
      obtain ⟨after, hafter⟩ := hserved.target path htarget text.toUTF8.toList
      simp only [hafter]

/-- A command line whose root leads to no folder ends at once. -/
theorem exits_iff_of_not_isFolder (h : fs.isFolder arguments.root = false) {code : Nat} :
    Exits host fs generatedAt signal arguments code ↔ code = 1 := by
  have hrun : run host fs (scanWith fs generatedAt signal) arguments =
      .ok (⟨1, "", ["Error: '" ++ arguments.root ++ "' is not a directory"], []⟩, fs) := by
    unfold run produce
    rw [h]
    rfl
  unfold Exits
  rw [hrun]
  constructor
  · rintro ⟨outcome, after, heq, rfl⟩
    cases heq
    rfl
  · rintro rfl
    exact ⟨_, _, rfl, rfl⟩

/-- What a command line produces and how it ends go together. -/
theorem exits_iff_produce {code : Nat} :
    Exits host fs generatedAt signal arguments code ↔ ∃ production,
      produce host fs (scanWith fs generatedAt signal) arguments = .ok production ∧
        (deliver fs arguments production).1.exitCode = code := by
  unfold Exits run
  constructor
  · rintro ⟨outcome, after, h, rfl⟩
    obtain ⟨production, hproduction, h⟩ := bind_eq_ok.mp h
    exact ⟨production, hproduction, by rw [Except.ok.inj h]⟩
  · rintro ⟨production, hproduction, rfl⟩
    exact ⟨_, _, bind_eq_ok.mpr ⟨production, hproduction, rfl⟩, rfl⟩

/-- The faults that a command line tells in words, and the exit codes that go with them. -/
theorem exists_failureOf_iff {fault : ScanFault} {code : Nat} :
    (∃ failure, failureOf (.fault fault) = .ok failure ∧ failure.exitCode = code) ↔
      (∃ given, fault = .noRoot given ∧ code = 1) ∨
        ∃ root, fault = .cancelled root ∧ code = 130 := by
  cases fault with
  | noRoot given =>
      constructor
      · rintro ⟨_, ⟨⟩, rfl⟩
        exact Or.inl ⟨given, rfl, rfl⟩
      · rintro (⟨_, -, rfl⟩ | ⟨root, heq, -⟩)
        · exact ⟨_, rfl, rfl⟩
        · cases heq
  | cancelled root =>
      constructor
      · rintro ⟨_, ⟨⟩, rfl⟩
        exact Or.inr ⟨root, rfl, rfl⟩
      · rintro (⟨given, heq, -⟩ | ⟨_, -, rfl⟩)
        · cases heq
        · exact ⟨_, rfl, rfl⟩
  | noHome =>
      refine iff_of_false ?_ ?_
      · rintro ⟨_, h, -⟩
        cases h
      · rintro (⟨_, heq, -⟩ | ⟨_, heq, -⟩)
        · cases heq
        · cases heq
  | size size =>
      refine iff_of_false ?_ ?_
      · rintro ⟨_, h, -⟩
        cases h
      · rintro (⟨_, heq, -⟩ | ⟨_, heq, -⟩)
        · cases heq
        · cases heq

section Folder

variable {options : ScanOptions} {warnings : List Warning} {result : Except ScanFault Report}
  (hfolder : fs.isFolder arguments.root = true)
  (hoptions : optionsFor host fs arguments = .ok (options, warnings))
  (hscan : (Scan.run fs (some (tidied arguments.root)) generatedAt options signal).1 = result)

include hfolder hoptions hscan

/-- What a command line produces whose root leads to a folder. -/
theorem produce_of_isFolder :
    ∃ shown, produce host fs (scanWith fs generatedAt signal) arguments =
      match result with
      | .ok report => render arguments report >>= fun text => .ok ⟨shown, .ok text⟩
      | .error fault =>
        failureOf (.fault fault) >>= fun failure => .ok ⟨shown, .error failure⟩ := by
  refine ⟨if arguments.isQuiet then [] else warnings, ?_⟩
  have hstart : scanWith fs generatedAt signal (Session.start (tidied arguments.root) options) =
      result.mapError .fault := by
    rw [scanWith_start, hscan]
  unfold produce
  rw [if_pos hfolder, hoptions]
  simp only [bind, Except.bind, hstart]
  cases result with
  | ok report => rfl
  | error fault => rfl

/-- **How a command line ends whose root leads to a folder**: with a report, without a root, or
called off. -/
theorem exits_iff_of_isFolder (hserved : IsServed host fs arguments) {code : Nat} :
    Exits host fs generatedAt signal arguments code ↔
      (∃ report text, result = .ok report ∧ render arguments report = .ok text ∧ code = 0) ∨
        (∃ given, result = .error (.noRoot given) ∧ code = 1) ∨
        ∃ root, result = .error (.cancelled root) ∧ code = 130 := by
  obtain ⟨shown, hproduce⟩ := produce_of_isFolder hfolder hoptions hscan
  rw [exits_iff_produce, hproduce]
  cases result with
  | ok report =>
      simp only [Except.ok.injEq, reduceCtorEq, false_and, exists_false, or_false, bind_eq_ok]
      constructor
      · rintro ⟨production, ⟨text, htext, rfl⟩, rfl⟩
        exact ⟨report, text, rfl, htext, exitCode_deliver hserved _ rfl⟩
      · rintro ⟨_, text, rfl, htext, rfl⟩
        exact ⟨_, ⟨text, htext, rfl⟩, exitCode_deliver hserved _ rfl⟩
  | error fault =>
      simp only [Except.error.injEq, reduceCtorEq, false_and, exists_false, false_or, bind_eq_ok,
        ← exists_failureOf_iff]
      constructor
      · rintro ⟨production, ⟨failure, hfailure, h⟩, rfl⟩
        cases h
        exact ⟨failure, hfailure, by rw [deliver_error _ rfl]⟩
      · rintro ⟨failure, hfailure, rfl⟩
        exact ⟨_, ⟨failure, hfailure, rfl⟩, by rw [deliver_error _ rfl]⟩

end Folder

/-- **When a command line ends for want of a root**: its root leads to no folder as it is written,
or the tidy form of it is no root of a scan. -/
theorem exits_one_iff (hserved : IsServed host fs arguments) :
    Exits host fs generatedAt signal arguments 1 ↔ fs.isFolder arguments.root = false ∨
      ∃ given, fs.rootPlace (some (tidied arguments.root)) = .error (.noRoot given) := by
  cases hfolder : fs.isFolder arguments.root with
  | false => simp [exits_iff_of_not_isFolder hfolder]
  | true =>
      obtain ⟨options, warnings, hoptions⟩ := hserved.options hfolder
      have hnone : Exits host fs generatedAt signal arguments 1 ↔ ∃ given,
          (Scan.run fs (some (tidied arguments.root)) generatedAt options signal).1 =
            .error (.noRoot given) := by
        rw [exits_iff_of_isFolder hfolder hoptions rfl hserved]
        simp
      rw [hnone, Scan.run_eq_noRoot_iff]
      simp

/-! ## Where the two differ -/

/-- **`Astray fs root`** — a command line and a scan do not agree about the root: it is empty and
there is a current folder; or it is blank in its tidy form only and leads to a folder; or it begins
with `~` and leads to no folder as it is written, but to one, or to no home at all, with the `~`
replaced. -/
inductive Astray (fs : FileSystem) (root : String) : Prop
  | empty (h : root = "") (hfolder : fs.isFolder "" = true) : Astray fs root
  | blank (h : isBlankPath root = false) (htidied : isBlankPath (tidied root) = true)
      (hfolder : fs.isFolder root = true) : Astray fs root
  | home (h : beginsWith '~' (tidied root) = true) (hfolder : fs.isFolder root = false)
      (hhome : ∀ expanded, fs.expandHome root = .ok expanded → fs.isFolder expanded = true) :
      Astray fs root

/-- A root without `~` leads for a scan where it leads as it is written. -/
theorem exists_expandHome_iff (h : beginsWith '~' (tidied path) = false) :
    (∃ expanded, fs.expandHome path = .ok expanded ∧ fs.isFolder expanded = false) ↔
      fs.isFolder path = false := by
  rw [FileSystem.expandHome_eq_tidied h]
  constructor
  · rintro ⟨_, ⟨⟩, hfolder⟩
    rwa [FileSystem.isFolder_tidied] at hfolder
  · exact fun hfolder => ⟨_, rfl, by rwa [FileSystem.isFolder_tidied]⟩

/-- **The two ways to have no root agree exactly where they do not go astray.** -/
theorem noRoot_agrees_iff (fs : FileSystem) (root : String) :
    ((fs.isFolder root = false ∨
          ∃ given, fs.rootPlace (some (tidied root)) = .error (.noRoot given)) ↔
        ∃ given, fs.rootPlace (some root) = .error (.noRoot given)) ↔ ¬ Astray fs root := by
  rw [FileSystem.rootPlace_eq_noRoot_iff, FileSystem.rootPlace_eq_noRoot_iff,
    FileSystem.expandHome_tidied]
  cases hblank : isBlankPath root with
  | true =>
      by_cases hempty : root = ""
      · -- the tidy form of the empty path is the current folder
        subst hempty
        have htidied : isBlankPath (tidied "") = false := by decide
        have hhome : beginsWith '~' (tidied "") = false := by decide
        rw [exists_expandHome_iff hhome, htidied]
        cases hfolder : fs.isFolder "" with
        | true => exact iff_of_false (by simp) (not_not_intro (.empty rfl hfolder))
        | false =>
            refine iff_of_true (by simp) ?_
            rintro (⟨-, h⟩ | ⟨h, -, -⟩ | ⟨h, -, -⟩)
            · exact Bool.false_ne_true (hfolder.symm.trans h)
            · exact Bool.false_ne_true (h.symm.trans hblank)
            · exact Bool.false_ne_true (hhome.symm.trans h)
      · have htidied := tidied_of_isBlankPath hblank hempty
        rw [htidied, hblank]
        refine iff_of_true (by simp) ?_
        rintro (⟨h, -⟩ | ⟨h, -, -⟩ | ⟨h, -, -⟩)
        · exact hempty h
        · exact Bool.false_ne_true (h.symm.trans hblank)
        · rw [htidied, beginsWith_of_isBlankPath hblank] at h
          cases h
  | false =>
      have hne : root ≠ "" := by
        rintro rfl
        cases hblank
      cases htidied : isBlankPath (tidied root) with
      | true =>
          have hhome := beginsWith_of_isBlankPath htidied
          rw [exists_expandHome_iff hhome]
          cases hfolder : fs.isFolder root with
          | true => exact iff_of_false (by simp) (not_not_intro (.blank hblank htidied hfolder))
          | false =>
              refine iff_of_true (by simp) ?_
              rintro (⟨h, -⟩ | ⟨-, -, h⟩ | ⟨h, -, -⟩)
              · exact hne h
              · exact Bool.false_ne_true (hfolder.symm.trans h)
              · exact Bool.false_ne_true (hhome.symm.trans h)
      | false =>
          cases hfolder : fs.isFolder root with
          | true =>
              refine iff_of_true (by simp) ?_
              rintro (⟨h, -⟩ | ⟨-, h, -⟩ | ⟨-, h, -⟩)
              · exact hne h
              · exact Bool.false_ne_true (htidied.symm.trans h)
              · exact Bool.false_ne_true (h.symm.trans hfolder)
          | false =>
              by_cases hnone : ∃ expanded, fs.expandHome root = .ok expanded ∧
                  fs.isFolder expanded = false
              · refine iff_of_true (by simp [hnone]) ?_
                rintro (⟨h, -⟩ | ⟨-, h, -⟩ | ⟨-, -, h⟩)
                · exact hne h
                · exact Bool.false_ne_true (htidied.symm.trans h)
                · obtain ⟨expanded, hexpanded, hno⟩ := hnone
                  exact Bool.false_ne_true (hno.symm.trans (h expanded hexpanded))
              · refine iff_of_false (by simp [hnone]) (not_not_intro (.home ?_ hfolder ?_))
                · rw [← Bool.not_eq_false]
                  exact fun h => hnone ((exists_expandHome_iff h).mpr hfolder)
                · intro expanded hexpanded
                  rw [← Bool.not_eq_false]
                  exact fun hno => hnone ⟨expanded, hexpanded, hno⟩

/-! ## The root of a command line -/

/-- The root that a scan has to be given to begin where the command line does. -/
def scannedRoot (root : String) : String :=
  if root = "" then "." else root

theorem rootPlace_scannedRoot {root : String}
    (h : fs.rootPlace (some (tidied root)) = .ok place) :
    fs.rootPlace (some (scannedRoot root)) = .ok place := by
  have htidied : isBlankPath (tidied root) = false := by
    rw [← Bool.not_eq_true]
    intro hblank
    obtain ⟨given, hnone⟩ := FileSystem.rootPlace_eq_noRoot_iff.mpr (Or.inl hblank)
    rw [h] at hnone
    cases hnone
  unfold scannedRoot
  split
  · rename_i hempty
    have hdot : tidied "" = "." := by decide
    rwa [hempty, hdot] at h
  · rename_i hne
    refine (FileSystem.rootPlace_tidied_eq_ok_iff ?_ htidied).mp h
    rw [← Bool.not_eq_true]
    intro hblank
    rw [tidied_of_isBlankPath hblank hne, hblank] at htidied
    cases htidied

/-- **What a command line shows that succeeds** is the report of a scan of its root. -/
theorem exists_report_of_exits_zero (hserved : IsServed host fs arguments)
    (h : Exits host fs generatedAt signal arguments 0) :
    ∃ options warnings report text place,
      optionsFor host fs arguments = .ok (options, warnings) ∧
        fs.rootPlace (some (scannedRoot arguments.root)) = .ok place ∧
        (Scan.run fs (some (scannedRoot arguments.root)) generatedAt options signal).1 =
          .ok report ∧
        report.rootPath = FileSystem.pathOf place ∧ render arguments report = .ok text ∧
        ∃ shown, produce host fs (scanWith fs generatedAt signal) arguments =
          .ok ⟨shown, .ok text⟩ := by
  cases hfolder : fs.isFolder arguments.root with
  | false => cases (exits_iff_of_not_isFolder hfolder).mp h
  | true =>
      obtain ⟨options, warnings, hoptions⟩ := hserved.options hfolder
      rcases (exits_iff_of_isFolder hfolder hoptions rfl hserved).mp h with
        ⟨report, text, hscan, htext, -⟩ | ⟨_, -, hcode⟩ | ⟨_, -, hcode⟩
      · obtain ⟨place, hplace, hnamed⟩ := Scan.exists_place_of_run_ok hscan
        have hscanned := rootPlace_scannedRoot hplace
        obtain ⟨shown, hproduce⟩ := produce_of_isFolder hfolder hoptions hscan
        refine ⟨options, warnings, report, text, place, hoptions, hscanned, ?_, hnamed, htext,
          shown, ?_⟩
        · rw [Scan.run_congr hscanned hplace, hscan]
        · rw [hproduce]
          exact bind_eq_ok.mpr ⟨text, htext, rfl⟩
      · cases hcode
      · cases hcode

/-- **A command line and a scan agree about the root exactly where they do not go astray**: there
the command line ends with 1 exactly if the scan has no root, whatever its options are, at whatever
time and until whatever signal.  And wherever a command line ends with 0, it has shown the report of
the place that its root leads a scan to, or that of the current folder if its root is empty. -/
theorem exits_one_iff_noRoot_iff (hserved : IsServed host fs arguments) :
    (∀ options time coming,
      (Exits host fs generatedAt signal arguments 1 ↔ ∃ given,
          (Scan.run fs (some arguments.root) time options coming).1 = .error (.noRoot given)) ↔
        ¬ Astray fs arguments.root) ∧
      (Exits host fs generatedAt signal arguments 0 →
        ∃ options warnings report text place,
          optionsFor host fs arguments = .ok (options, warnings) ∧
            fs.rootPlace (some (scannedRoot arguments.root)) = .ok place ∧
            (Scan.run fs (some (scannedRoot arguments.root)) generatedAt options signal).1 =
              .ok report ∧
            report.rootPath = FileSystem.pathOf place ∧ render arguments report = .ok text ∧
            ∃ shown, produce host fs (scanWith fs generatedAt signal) arguments =
              .ok ⟨shown, .ok text⟩) := by
  refine ⟨fun options time coming => ?_, exists_report_of_exits_zero hserved⟩
  rw [exits_one_iff hserved, Scan.run_eq_noRoot_iff]
  exact noRoot_agrees_iff fs arguments.root

/-- A command line with a root, and with settings that are not there. -/
def rootedAt (root : String) : Arguments :=
  { root, settings? := some "none.json" }

theorem optionsFor_rootedAt (root : String) :
    optionsFor sixProcessors emptyPlace (rootedAt root) =
      .ok (.default (some 6), [.unreadableFile]) := by
  unfold optionsFor
  rw [settingsFor_emptyPlace _ rfl]
  rfl

theorem isServed_rootedAt (root : String) : IsServed sixProcessors emptyPlace (rootedAt root) where
  options _ := ⟨_, _, optionsFor_rootedAt root⟩
  target _ hpath := by cases hpath

/-- A path of no segments leads to the place itself. -/
theorem place?_emptyPlace_of_nil (h : FileSystem.segmentsOf path = []) :
    emptyPlace.place? path = some [] := by
  have hstart : (if isAbsolute path.toList then [] else emptyPlace.current.reverse) = [] := by
    split
    · rfl
    · rfl
  unfold FileSystem.place? FileSystem.locate
  rw [h, hstart, FileSystem.follow]
  rfl

theorem isFolder_emptyPlace_of_nil (h : FileSystem.segmentsOf path = []) :
    emptyPlace.isFolder path = true := by
  rw [FileSystem.isFolder_eq, place?_emptyPlace_of_nil h]
  rfl

theorem rootPlace_emptyPlace (hblank : isBlankPath path = false)
    (hhome : emptyPlace.expandHome path = .ok path) (h : FileSystem.segmentsOf path = []) :
    emptyPlace.rootPlace (some path) = .ok [] := by
  rw [FileSystem.rootPlace_some hblank, hhome]
  show (if emptyPlace.isFolder path = true then _ else _) = _
  rw [if_pos (isFolder_emptyPlace_of_nil h), place?_emptyPlace_of_nil h]
  rfl

/-- A place with nothing in it has a report. -/
theorem exits_zero_rootedAt {root : String}
    (hfolder : emptyPlace.isFolder (rootedAt root).root = true)
    (hroot : emptyPlace.rootPlace (some (tidied (rootedAt root).root)) = .ok []) :
    Exits sixProcessors emptyPlace "" .never (rootedAt root) 0 := by
  let top := Entry.folder "" Faults.none []
  have hok : (Scan.folder top "/" "" (.default (some 6)) .never).1.isOk = true := by
    decide +kernel
  have hscan : (Scan.run emptyPlace (some (tidied (rootedAt root).root)) ""
      (.default (some 6)) .never).1 = (Scan.folder top "/" "" (.default (some 6)) .never).1 := by
    unfold Scan.run
    rw [hroot]
    rfl
  cases hresult : (Scan.folder top "/" "" (.default (some 6)) .never).1 with
  | error fault =>
      rw [hresult] at hok
      cases hok
  | ok report =>
      have htext : render (rootedAt root) report =
          .ok (Render.toText report (.ofStyle (rootedAt root).style)) := rfl
      exact (exits_iff_of_isFolder hfolder (optionsFor_rootedAt root) (hscan.trans hresult)
        (isServed_rootedAt root)).mpr (Or.inl ⟨report, _, rfl, htext, rfl⟩)

/-- **An empty root is the current folder for a command line, and no root for a scan.** -/
theorem exits_zero_of_emptyRoot :
    IsServed sixProcessors emptyPlace (rootedAt "") ∧
      (Scan.run emptyPlace (some "") "" (.default none) .never).1 = .error (.noRoot (some "")) ∧
      ¬ Exits sixProcessors emptyPlace "" .never (rootedAt "") 1 ∧
      Exits sixProcessors emptyPlace "" .never (rootedAt "") 0 := by
  have hfolder : emptyPlace.isFolder "" = true := isFolder_emptyPlace_of_nil (by decide)
  have hroot : emptyPlace.rootPlace (some (tidied "")) = .ok [] :=
    rootPlace_emptyPlace (by decide) rfl (by decide)
  refine ⟨isServed_rootedAt "", rfl, ?_, exits_zero_rootedAt hfolder hroot⟩
  rw [exits_one_iff (isServed_rootedAt "")]
  rintro (hno | ⟨given, hnone⟩)
  · exact Bool.false_ne_true (hno.symm.trans hfolder)
  · rw [show (rootedAt "").root = "" from rfl, hroot] at hnone
    cases hnone

theorem exits_one_iff_noRoot_iff_emptyPlace :
    IsServed sixProcessors emptyPlace (rootedAt "") ∧ Astray emptyPlace "" ∧
      ¬ (Exits sixProcessors emptyPlace "" .never (rootedAt "") 1 ↔ ∃ given,
        (Scan.run emptyPlace (some "") "" (.default none) .never).1 = .error (.noRoot given)) ∧
      IsServed sixProcessors emptyPlace (rootedAt " ") ∧ ¬ Astray emptyPlace " " ∧
      (Exits sixProcessors emptyPlace "" .never (rootedAt " ") 1 ↔ ∃ given,
        (Scan.run emptyPlace (some " ") "" (.default none) .never).1 = .error (.noRoot given)) ∧
      IsServed sixProcessors emptyPlace (rootedAt ".") ∧
      Exits sixProcessors emptyPlace "" .never (rootedAt ".") 0 ∧
      ∃ options report, (Scan.run emptyPlace (some ".") "" options .never).1 = .ok report ∧
        report.rootPath = "/" := by
  have hempty : Astray emptyPlace "" := .empty rfl (isFolder_emptyPlace_of_nil (by decide))
  have hblank : ¬ Astray emptyPlace " " := by
    rintro (⟨h, -⟩ | ⟨h, -, -⟩ | ⟨h, -, -⟩)
    · exact absurd h (by decide)
    · exact absurd h (by decide)
    · exact absurd h (by decide)
  have hroot : emptyPlace.rootPlace (some ".") = .ok [] :=
    rootPlace_emptyPlace (by decide) rfl (by decide)
  have hcurrent : Exits sixProcessors emptyPlace "" .never (rootedAt ".") 0 :=
    exits_zero_rootedAt (isFolder_emptyPlace_of_nil (by decide)) hroot
  obtain ⟨options, -, report, -, place, -, hplace, hscan, hnamed, -⟩ :=
    (exits_one_iff_noRoot_iff (isServed_rootedAt ".")).2 hcurrent
  have htop : place = [] := Except.ok.inj (hplace.symm.trans hroot)
  refine ⟨isServed_rootedAt "", hempty, ?_, isServed_rootedAt " ", hblank, ?_,
    isServed_rootedAt ".", hcurrent, options, report, hscan, ?_⟩
  · intro h
    exact ((exits_one_iff_noRoot_iff (isServed_rootedAt "")).1 (.default none) "" .never).mp
      h hempty
  · exact ((exits_one_iff_noRoot_iff (isServed_rootedAt " ")).1 (.default none) "" .never).mpr
      hblank
  · rw [hnamed, htop]
    rfl

end CommandLine

end SourceAtlas
