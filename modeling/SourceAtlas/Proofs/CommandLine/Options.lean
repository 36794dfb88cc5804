/-
# SourceAtlas.Proofs.CommandLine.Options — options are usable, wherever they come from.

Options are made from raw values, from a mapping of settings, from a settings file, and from a
command line that overrules one.  The first three go through the same cleaning, and the last one
sets fields of options that were cleaned before.  `Overrules` tells field by field what comes of a
command line and the options below it (`overrules_optionsFor`), and that alone keeps options usable
(`Overrules.isUsable`), so that a scan gets usable options on every way (`isUsable_everywhere`).
-/
import SourceAtlas.CommandLine.Run
import SourceAtlas.Proofs.Settings.Recleaned

namespace SourceAtlas

open Settings Text

/-! ## Usable options -/

/-- **`IsUsable options`** — there is a reader at least, and no negative number of critical files is
asked for; the names have the form in which the names of files are compared with them; and what is
analysed is what was chosen, or the default extensions if nothing was, and `.exe` in any case. -/
structure ScanOptions.IsUsable (options : ScanOptions) : Prop where
  workers : 1 ≤ options.maxWorkers
  limit : 0 ≤ options.criticalLimit
  extensions : ∀ ext ∈ options.includeExtensions,
    (∃ c rest, ext.toList = '.' :: c :: rest) ∧ lower ext = ext
  folders : ∀ folder ∈ options.excludeFolders, folder ≠ "" ∧ lower folder = folder
  active : ∀ ext, ext ∈ options.activeExtensions ↔
    ext ∈ options.includeExtensions ∨
      (∀ other, other ∉ options.includeExtensions) ∧ ext ∈ defaultExtensions ∨ ext = ".exe"

theorem IsExtension.exists_eq_cons {ext : String} (h : IsExtension ext) :
    ∃ c rest, ext.toList = '.' :: c :: rest := by
  obtain ⟨rest, hrest⟩ := List.head?_eq_some_iff.mp h.dotted
  have hlong := h.long
  rw [hrest] at hlong
  cases rest with
  | nil => exact absurd hlong (by decide)
  | cons c rest => exact ⟨c, rest, hrest⟩

/-- What is analysed: the chosen extensions, the default ones for want of any, and `.exe`. -/
theorem ScanOptions.mem_activeExtensions {options : ScanOptions} {ext : String} :
    ext ∈ options.activeExtensions ↔
      ext ∈ options.includeExtensions ∨
        (∀ other, other ∉ options.includeExtensions) ∧ ext ∈ defaultExtensions ∨ ext = ".exe" := by
  have hempty : options.includeExtensions.isEmpty = true ↔
      ∀ other, other ∉ options.includeExtensions := by
    unfold OrderedSet.isEmpty
    rw [List.isEmpty_iff, List.eq_nil_iff_forall_not_mem]
    rfl
  unfold ScanOptions.activeExtensions alwaysIncluded
  simp only
  rw [OrderedSet.mem_foldl_insert, List.mem_singleton]
  split
  · rename_i hnone
    have hno := hempty.mp hnone
    constructor
    · rintro (hexe | hdefault)
      · exact Or.inr (Or.inr hexe)
      · exact Or.inr (Or.inl ⟨hno, hdefault⟩)
    · rintro (hchosen | ⟨-, hdefault⟩ | hexe)
      · exact absurd hchosen (hno ext)
      · exact Or.inr hdefault
      · exact Or.inl hexe
  · rename_i hsome
    constructor
    · rintro (hexe | hchosen)
      · exact Or.inr (Or.inr hexe)
      · exact Or.inl hchosen
    · rintro (hchosen | ⟨hno, -⟩ | hexe)
      · exact Or.inr hchosen
      · exact absurd (hempty.mpr hno) hsome
      · exact Or.inl hexe

/-- Options with clean names and numbers in their range are usable. -/
theorem ScanOptions.isUsable_ofRaw (raw : ScanOptions.Raw) :
    (ScanOptions.ofRaw raw).1.IsUsable where
  workers := le_max_left 1 raw.maxWorkers
  limit := le_max_left 0 raw.criticalLimit
  extensions ext hext := by
    have h := (isClean_ofRaw raw).extensions ext hext
    exact ⟨h.exists_eq_cons, h.lowered⟩
  folders folder hfolder := by
    have h := (isClean_ofRaw raw).folders folder hfolder
    exact ⟨by simpa using h.nonempty, h.lowered⟩
  active _ := mem_activeExtensions

theorem isUsable_apply {processors : Option Nat} {mapping : List (Value × Value)}
    {options : ScanOptions} {warnings : List Warning}
    (h : apply processors mapping = .ok (options, warnings)) : options.IsUsable := by
  obtain ⟨workers, timeout, limit, -, -, -, heq⟩ := apply_eq_ok_iff.mp h
  cases heq
  exact ScanOptions.isUsable_ofRaw _

theorem isUsable_optionsOfText {host : Host} {format : Format} {text : List Char}
    {options : ScanOptions} {warnings : List Warning}
    (h : optionsOfText host format text = .ok (options, warnings)) : options.IsUsable := by
  unfold optionsOfText at h
  split at h
  · cases h
    exact ScanOptions.isUsable_ofRaw _
  · cases h
  · cases h
    exact ScanOptions.isUsable_ofRaw _
  · exact isUsable_apply (mapError_eq_ok.mp h)
  · cases h
    exact ScanOptions.isUsable_ofRaw _

/-- **A settings file gives usable options**, also if it cannot be read. -/
theorem isUsable_load {host : Host} {fs : FileSystem} {path : String} {options : ScanOptions}
    {warnings : List Warning} (h : load host fs path = .ok (options, warnings)) :
    options.IsUsable := by
  unfold load at h
  split at h
  · cases h
    exact ScanOptions.isUsable_ofRaw _
  · exact isUsable_optionsOfText h

namespace CommandLine

variable {host : Host} {fs : FileSystem} {arguments : Arguments} {base options : ScanOptions}
  {warnings : List Warning}

theorem isUsable_settingsFor (h : settingsFor host fs arguments = .ok (base, warnings)) :
    base.IsUsable := by
  unfold settingsFor at h
  simp only at h
  split at h
  · exact isUsable_load (mapError_eq_ok.mp h)
  · cases h
    exact ScanOptions.isUsable_ofRaw _

/-! ## Command lines -/

/-- **`Overrules fs arguments base options`** — the options are those below them, but where a flag
is given with a value they have its value: names cleaned, numbers kept in their range, and the
folders of the flag together with the default ones and those below. -/
structure Overrules (fs : FileSystem) (arguments : Arguments) (base options : ScanOptions) :
    Prop where
  extensions : ∀ names ∈ arguments.includeExtensions?, names ≠ [] → ∀ ext,
    ext ∈ options.includeExtensions ↔ ∃ name ∈ names, cleanExtension? name = some ext
  extensions_kept : (∀ names ∈ arguments.includeExtensions?, names = []) →
    options.includeExtensions = base.includeExtensions
  folders : ∀ names ∈ arguments.excludeFolders?, names ≠ [] → ∀ folder,
    folder ∈ options.excludeFolders ↔ (∃ name ∈ names, cleanFolder? name = some folder) ∨
      folder ∈ defaultExcluded ∨ folder ∈ base.excludeFolders
  folders_kept : (∀ names ∈ arguments.excludeFolders?, names = []) →
    options.excludeFolders = base.excludeFolders
  mainFile : ∀ given ∈ arguments.mainFile?, given ≠ "" →
    ∃ file, mainFileFor fs arguments.root given = .ok file ∧ options.mainFile = some file ∧
      (Path.isAbsolute (trimmed given).toList = false → file = Path.withSlashes (trimmed given))
  mainFile_kept : (∀ given ∈ arguments.mainFile?, given = "") → options.mainFile = base.mainFile
  workers : ∀ given ∈ arguments.workers?, options.maxWorkers = max 1 given
  workers_kept : arguments.workers? = none → options.maxWorkers = base.maxWorkers
  timeout : ∀ given ∈ arguments.timeout?, options.readTimeout = given
  timeout_kept : arguments.timeout? = none → options.readTimeout = base.readTimeout
  limit : ∀ given ∈ arguments.top?, options.criticalLimit = max 0 given
  limit_kept : arguments.top? = none → options.criticalLimit = base.criticalLimit
  partial_kept : options.partialOnCancel = base.partialOnCancel

/-- What is left of an optional list or text if an empty one counts as none. -/
theorem filter_eq_some_iff {α : Type} {isEmpty : α → Bool} {given : Option α} {a : α} :
    given.filter (!isEmpty ·) = some a ↔ given = some a ∧ isEmpty a = false := by
  rw [Option.filter_eq_some_iff, Bool.not_eq_true']

theorem filter_eq_none {α : Type} {isEmpty : α → Bool} {given : Option α}
    (h : ∀ a ∈ given, isEmpty a = true) : given.filter (!isEmpty ·) = none := by
  rw [Option.filter_eq_none_iff]
  intro a ha
  rw [h a ha]
  exact Bool.false_ne_true

theorem mem_cleanExtensions_asValue {names : List String} {ext : String} :
    ext ∈ (cleanExtensions (asValue names)).1 ↔
      ∃ name ∈ names, cleanExtension? name = some ext := by
  have hraw : rawNames .includeExtensions (asValue names) = (names, []) := textsOf_texts _ names
  unfold cleanExtensions
  rw [hraw, OrderedSet.mem_ofList, List.mem_filterMap]

theorem mem_mergeExcluded {names : List String} {folder : String} :
    folder ∈ (mergeExcluded (names.map .text)).1 ↔
      (∃ name ∈ names, cleanFolder? name = some folder) ∨ folder ∈ defaultExcluded := by
  have hraw : rawNames .excludeFolders (asValue names) = (names, []) := textsOf_texts _ names
  unfold asValue at hraw
  unfold mergeExcluded cleanFolders
  rw [hraw, OrderedSet.mem_union, OrderedSet.mem_ofList, List.mem_filterMap]

theorem mainFileFor_relative {root given file : String} (h : mainFileFor fs root given = .ok file)
    (hrelative : Path.isAbsolute (trimmed given).toList = false) :
    file = Path.withSlashes (trimmed given) := by
  unfold mainFileFor at h
  simp only [hrelative, Bool.false_eq_true, if_false] at h
  exact (Except.ok.inj h).symm

/-- What a run of `optionsFor` that succeeds has gone through. -/
theorem exists_of_optionsFor (h : optionsFor host fs arguments = .ok (options, warnings)) :
    ∃ base mainFile, settingsFor host fs arguments = .ok (base, warnings) ∧
      (∀ given, arguments.mainFile?.filter (!·.isEmpty) = some given →
        ∃ file, mainFileFor fs arguments.root given = .ok file ∧ mainFile = some file) ∧
      (arguments.mainFile?.filter (!·.isEmpty) = none → mainFile = base.mainFile) ∧
      options =
        { base with
          includeExtensions :=
            match arguments.includeExtensions?.filter (!·.isEmpty) with
            | some names => (cleanExtensions (asValue names)).1
            | none => base.includeExtensions
          excludeFolders :=
            match arguments.excludeFolders?.filter (!·.isEmpty) with
            | some names => (mergeExcluded (names.map .text)).1.union base.excludeFolders
            | none => base.excludeFolders
          mainFile
          maxWorkers := (arguments.workers?.map (max 1)).getD base.maxWorkers
          readTimeout := arguments.timeout?.getD base.readTimeout
          criticalLimit := (arguments.top?.map (max 0)).getD base.criticalLimit } := by
  unfold optionsFor at h
  obtain ⟨⟨base, told⟩, hbase, h⟩ := bind_eq_ok.mp h
  simp only at h
  cases hgiven : arguments.mainFile?.filter (!·.isEmpty) with
  | none =>
      simp only [hgiven] at h
      cases h
      exact ⟨base, base.mainFile, hbase, fun _ h => (by cases h), fun _ => rfl, rfl⟩
  | some given =>
      simp only [hgiven] at h
      obtain ⟨mainFile, hmain, h⟩ := bind_eq_ok.mp h
      cases h
      refine ⟨base, mainFile, hbase, ?_, fun h => (by cases h), rfl⟩
      rintro _ ⟨⟩
      cases hfile : mainFileFor fs arguments.root given with
      | error fault =>
          rw [hfile] at hmain
          cases hmain
      | ok file =>
          rw [hfile] at hmain
          cases hmain
          exact ⟨file, rfl, rfl⟩

/-- **The options of a command line are those of its settings file, overruled.** -/
theorem overrules_optionsFor (h : optionsFor host fs arguments = .ok (options, warnings)) :
    ∃ base, settingsFor host fs arguments = .ok (base, warnings) ∧
      Overrules fs arguments base options := by
  obtain ⟨base, mainFile, hbase, hgiven, hkept, rfl⟩ := exists_of_optionsFor h
  refine ⟨base, hbase, ?_⟩
  constructor
  case extensions =>
    intro names hnames hne ext
    simp only [filter_eq_some_iff.mpr ⟨hnames, List.isEmpty_eq_false_iff.mpr hne⟩]
    exact mem_cleanExtensions_asValue
  case extensions_kept =>
    intro hnone
    simp only [filter_eq_none fun names hnames => List.isEmpty_iff.mpr (hnone names hnames)]
  case folders =>
    intro names hnames hne folder
    simp only [filter_eq_some_iff.mpr ⟨hnames, List.isEmpty_eq_false_iff.mpr hne⟩]
    rw [OrderedSet.mem_union, mem_mergeExcluded, or_assoc]
  case folders_kept =>
    intro hnone
    simp only [filter_eq_none fun names hnames => List.isEmpty_iff.mpr (hnone names hnames)]
  case mainFile =>
    intro given hmem hne
    obtain ⟨file, hfile, hmain⟩ := hgiven given
      (filter_eq_some_iff.mpr ⟨hmem, String.isEmpty_eq_false_iff.mpr hne⟩)
    exact ⟨file, hfile, hmain, mainFileFor_relative hfile⟩
  case mainFile_kept =>
    intro hnone
    exact hkept (filter_eq_none fun given hmem => String.isEmpty_iff.mpr (hnone given hmem))
  case workers =>
    intro given hmem
    rw [Option.mem_def.mp hmem]
    rfl
  case workers_kept =>
    intro hnone
    rw [hnone]
    rfl
  case timeout =>
    intro given hmem
    rw [Option.mem_def.mp hmem]
    rfl
  case timeout_kept =>
    intro hnone
    rw [hnone]
    rfl
  case limit =>
    intro given hmem
    rw [Option.mem_def.mp hmem]
    rfl
  case limit_kept =>
    intro hnone
    rw [hnone]
    rfl
  case partial_kept => rfl

/-- The default folders have the form of folders that were cleaned. -/
theorem lower_of_mem_defaultExcluded :
    ∀ folder ∈ defaultExcluded, folder ≠ "" ∧ lower folder = folder := by
  have hall : ∀ folder ∈ defaultExcluded.toList, folder ≠ "" ∧ lower folder = folder := by
    decide +kernel
  exact hall

/-- **Overruling keeps options usable.** -/
theorem Overrules.isUsable (h : Overrules fs arguments base options) (hbase : base.IsUsable) :
    options.IsUsable where
  workers := by
    cases hgiven : arguments.workers? with
    | none => exact (h.workers_kept hgiven).symm ▸ hbase.workers
    | some given => exact (h.workers given hgiven).symm ▸ le_max_left 1 given
  limit := by
    cases hgiven : arguments.top? with
    | none => exact (h.limit_kept hgiven).symm ▸ hbase.limit
    | some given => exact (h.limit given hgiven).symm ▸ le_max_left 0 given
  extensions := by
    by_cases hgiven : ∀ names ∈ arguments.includeExtensions?, names = []
    · rw [h.extensions_kept hgiven]
      exact hbase.extensions
    · obtain ⟨names, hnames, hne⟩ : ∃ names ∈ arguments.includeExtensions?, names ≠ [] := by
        simpa using hgiven
      intro ext hext
      obtain ⟨name, -, hclean⟩ := (h.extensions names hnames hne ext).mp hext
      have hform := IsExtension.of_cleanExtension? hclean
      exact ⟨hform.exists_eq_cons, hform.lowered⟩
  folders := by
    by_cases hgiven : ∀ names ∈ arguments.excludeFolders?, names = []
    · rw [h.folders_kept hgiven]
      exact hbase.folders
    · obtain ⟨names, hnames, hne⟩ : ∃ names ∈ arguments.excludeFolders?, names ≠ [] := by
        simpa using hgiven
      intro folder hfolder
      rcases (h.folders names hnames hne folder).mp hfolder with
        ⟨name, -, hclean⟩ | hdefault | hkept
      · have hform := IsFolder.of_cleanFolder? hclean
        exact ⟨by simpa using hform.nonempty, hform.lowered⟩
      · exact lower_of_mem_defaultExcluded folder hdefault
      · exact hbase.folders folder hkept
  active _ := ScanOptions.mem_activeExtensions

end CommandLine

/-! ## All ways to options -/

open CommandLine

/-- **Whatever options come from, a scan gets usable ones**: from raw values, from a mapping, from a
settings file and from a command line that overrules one, which does so field by field. -/
theorem isUsable_everywhere (host : Host) :
    (∀ raw, (ScanOptions.ofRaw raw).1.IsUsable) ∧
      (∀ mapping options warnings, apply host.processors mapping = .ok (options, warnings) →
        options.IsUsable) ∧
      (∀ fs path options warnings, load host fs path = .ok (options, warnings) →
        options.IsUsable) ∧
      ∀ fs arguments options warnings, optionsFor host fs arguments = .ok (options, warnings) →
        options.IsUsable ∧ ∃ base, settingsFor host fs arguments = .ok (base, warnings) ∧
          Overrules fs arguments base options := by
  refine ⟨ScanOptions.isUsable_ofRaw, ?_, ?_, ?_⟩
  · exact fun mapping options warnings h => isUsable_apply h
  · exact fun fs path options warnings h => isUsable_load h
  · intro fs arguments options warnings h
    obtain ⟨base, hbase, hoverrules⟩ := overrules_optionsFor h
    exact ⟨hoverrules.isUsable (isUsable_settingsFor hbase), base, hbase, hoverrules⟩

/-- A place with nothing in it. -/
def emptyPlace : FileSystem :=
  ⟨.folder "" Faults.none [], [], fun _ => none⟩

/-- A command line that gives every value in a form that has to be cleaned or kept in its range, and
names a settings file that is not there. -/
def carelessArguments : Arguments :=
  { settings? := some "none.json"
    includeExtensions? := some [" TS ", "."]
    excludeFolders? := some ["/Gen\\"]
    mainFile? := some " Src\\a.ts "
    workers? := some (-3)
    top? := some (-1) }

/-- No name leads anywhere there. -/
theorem place?_emptyPlace {path name : String} (hsegments : FileSystem.segmentsOf path = [name])
    (hname : name ≠ "..") : emptyPlace.place? path = none := by
  have hstart : (if Path.isAbsolute path.toList then [] else emptyPlace.current.reverse) = [] := by
    split
    · rfl
    · rfl
  unfold FileSystem.place? FileSystem.locate
  rw [hsegments, hstart, FileSystem.follow, if_neg hname]
  rfl

theorem load_emptyPlace (host : Host) : load host emptyPlace "none.json" =
    .ok (.default host.processors, [.unreadableFile]) := by
  have hplace : emptyPlace.place? "none.json" = none :=
    place?_emptyPlace (by decide : FileSystem.segmentsOf "none.json" = ["none.json"]) (by decide)
  unfold load FileSystem.bytes? FileSystem.entry?
  rw [hplace]
  rfl

/-- Settings that are not there leave the defaults. -/
theorem settingsFor_emptyPlace (host : Host) {arguments : Arguments}
    (h : arguments.settings? = some "none.json") :
    settingsFor host emptyPlace arguments =
      .ok (.default host.processors, [.unreadableFile]) := by
  have hgiven : arguments.settings?.filter (!·.isEmpty) = some "none.json" := by
    rw [h]
    rfl
  unfold settingsFor
  simp only [hgiven]
  show (load host emptyPlace "none.json").mapError _ = _
  rw [load_emptyPlace]
  rfl

/-- Settings with numbers out of their range, one of them as text. -/
def carelessMapping : List (Value × Value) :=
  [(.text "criticalLimit", .int (-3)), (.text "maxWorkers", .text "0")]

theorem isUsable_careless :
    (∃ options warnings, apply sixProcessors.processors carelessMapping = .ok (options, warnings) ∧
        options.IsUsable ∧ options.maxWorkers = 1 ∧ options.criticalLimit = 0) ∧
      (load sixProcessors emptyPlace "none.json" =
          .ok (.default sixProcessors.processors, [.unreadableFile]) ∧
        (ScanOptions.default sixProcessors.processors).IsUsable) ∧
      ∃ options, optionsFor sixProcessors emptyPlace carelessArguments =
          .ok (options, [.unreadableFile]) ∧
        options.IsUsable ∧ ".ts" ∈ options.includeExtensions ∧ "gen" ∈ options.excludeFolders ∧
        options.mainFile = some "Src/a.ts" ∧ options.maxWorkers = 1 ∧
        options.criticalLimit = 0 := by
  obtain ⟨-, hmapping, hfile, hline⟩ := isUsable_everywhere sixProcessors
  have happly : apply sixProcessors.processors carelessMapping =
      .ok ((ScanOptions.ofRaw
        (rawOf sixProcessors.processors carelessMapping 0 defaultReadTimeout (-3))).1, []) :=
    apply_eq_ok_iff.mpr ⟨(0, []), (defaultReadTimeout, []), (-3, []), rfl, rfl, rfl, rfl⟩
  obtain ⟨options, hoptions⟩ : ∃ options,
      optionsFor sixProcessors emptyPlace carelessArguments =
        .ok (options, [.unreadableFile]) := by
    unfold optionsFor
    rw [settingsFor_emptyPlace sixProcessors rfl]
    exact ⟨_, rfl⟩
  obtain ⟨husable, base, -, hoverrules⟩ := hline _ _ _ _ hoptions
  refine ⟨⟨_, _, happly, hmapping _ _ _ happly, rfl, rfl⟩,
    ⟨load_emptyPlace _, hfile _ _ _ _ (load_emptyPlace _)⟩, options, hoptions, husable, ?_, ?_, ?_,
    hoverrules.workers (-3) rfl, hoverrules.limit (-1) rfl⟩
  · exact (hoverrules.extensions _ rfl (by decide) ".ts").mpr ⟨" TS ", by decide, by decide +kernel⟩
  · refine (hoverrules.folders _ rfl (by decide) "gen").mpr (Or.inl ⟨"/Gen\\", by decide, ?_⟩)
    decide +kernel
  · obtain ⟨file, -, hmain, hrelative⟩ := hoverrules.mainFile _ rfl (by decide)
    rw [hmain, hrelative (by decide +kernel)]
    decide +kernel

end SourceAtlas
