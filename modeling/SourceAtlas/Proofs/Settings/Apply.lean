/-
# SourceAtlas.Proofs.Settings.Apply — what a mapping of settings and a settings file come to.

A mapping gives options exactly if no setting is out of range (`exists_apply_eq_ok_iff`).  A
malformed setting is told and passed over: without it the mapping gives the same options and the
other warnings (`apply_without`), except that folders which are no list of names leave no folder
out, where without them the default ones are.  A settings file stops a scan in two ways, by a text
that its reader fails on otherwise than as malformed and by a setting out of range
(`load_eq_error_iff`).
-/
import SourceAtlas.Proofs.Outcome
import SourceAtlas.Proofs.Settings.Malformed
import SourceAtlas.Settings.File
import SourceAtlas.Settings.Yaml

namespace SourceAtlas.Settings

variable {processors : Option Nat}

/-! ## A mapping and what it gives -/

/-- The raw values of a mapping whose numbers are known. -/
def rawOf (processors : Option Nat) (mapping : List (Value × Value)) (workers : Int)
    (timeout : Float) (limit : Int) : ScanOptions.Raw :=
  let raw := ScanOptions.Raw.default processors
  { raw with
    includeExtensions := (pick? (scope mapping) .includeExtensions).getD raw.includeExtensions
    excludeFolders := (pick? (scope mapping) .excludeFolders).getD raw.excludeFolders
    mainFile := (pick? (scope mapping) .mainFile).getD raw.mainFile
    maxWorkers := workers
    readTimeout := timeout
    criticalLimit := limit }

theorem ofRaw_eq (raw : ScanOptions.Raw) :
    ScanOptions.ofRaw raw =
      ({ includeExtensions := (cleanExtensions raw.includeExtensions).1
         excludeFolders := (cleanFolders raw.excludeFolders).1
         mainFile := (cleanMainFile raw.mainFile).1
         maxWorkers := max 1 raw.maxWorkers
         readTimeout := raw.readTimeout
         criticalLimit := max 0 raw.criticalLimit
         partialOnCancel := raw.partialOnCancel },
        (cleanExtensions raw.includeExtensions).2 ++ (cleanFolders raw.excludeFolders).2 ++
          (cleanMainFile raw.mainFile).2) := rfl

/-- A mapping gives options exactly if it gives the three numbers. -/
theorem apply_eq_ok_iff {mapping : List (Value × Value)} {result : ScanOptions × List Warning} :
    apply processors mapping = .ok result ↔
      ∃ workers timeout limit, let raw := ScanOptions.Raw.default processors
        numberOr castInt (scope mapping) .maxWorkers raw.maxWorkers = .ok workers ∧
        numberOr castFloat (scope mapping) .readTimeout raw.readTimeout = .ok timeout ∧
        numberOr castInt (scope mapping) .criticalLimit raw.criticalLimit = .ok limit ∧
        let cleaned := ScanOptions.ofRaw (rawOf processors mapping workers.1 timeout.1 limit.1)
        result = (cleaned.1, workers.2 ++ timeout.2 ++ limit.2 ++ cleaned.2) := by
  unfold apply
  simp only [bind_eq_ok]
  constructor
  · rintro ⟨workers, hworkers, timeout, htimeout, limit, hlimit, hresult⟩
    cases hresult
    exact ⟨workers, timeout, limit, hworkers, htimeout, hlimit, rfl⟩
  · rintro ⟨workers, timeout, limit, hworkers, htimeout, hlimit, rfl⟩
    exact ⟨workers, hworkers, timeout, htimeout, limit, hlimit, rfl⟩

/-- **A mapping gives options exactly if no setting is out of range.** -/
theorem exists_apply_eq_ok_iff (processors : Option Nat) (mapping : List (Value × Value)) :
    (∃ result, apply processors mapping = .ok result) ↔ ¬ Overflows mapping := by
  let raw := ScanOptions.Raw.default processors
  have hworkers :=
    exists_numberOr_eq_ok_iff castsFor_maxWorkers raw.maxWorkers (scope mapping)
  have htimeout :=
    exists_numberOr_eq_ok_iff castsFor_readTimeout raw.readTimeout (scope mapping)
  have hlimit :=
    exists_numberOr_eq_ok_iff castsFor_criticalLimit raw.criticalLimit (scope mapping)
  constructor
  · rintro ⟨result, hresult⟩ ⟨setting, value, hgiven, hrange⟩
    obtain ⟨workers, timeout, limit, h₁, h₂, h₃, -⟩ := apply_eq_ok_iff.mp hresult
    cases setting with
    | maxWorkers =>
        rw [hworkers.mp ⟨workers, h₁⟩ value hgiven] at hrange
        cases hrange
    | readTimeout =>
        rw [htimeout.mp ⟨timeout, h₂⟩ value hgiven] at hrange
        cases hrange
    | criticalLimit =>
        rw [hlimit.mp ⟨limit, h₃⟩ value hgiven] at hrange
        cases hrange
    | includeExtensions => cases hrange
    | excludeFolders => cases hrange
    | mainFile => cases hrange
  · intro hnone
    have hfits : ∀ setting value, pick? (scope mapping) setting = some value →
        isOutOfRange setting value = false := fun setting value hgiven =>
      Bool.eq_false_iff.mpr fun hrange => hnone ⟨setting, value, hgiven, hrange⟩
    obtain ⟨workers, h₁⟩ := hworkers.mpr (hfits .maxWorkers)
    obtain ⟨timeout, h₂⟩ := htimeout.mpr (hfits .readTimeout)
    obtain ⟨limit, h₃⟩ := hlimit.mpr (hfits .criticalLimit)
    exact ⟨_, apply_eq_ok_iff.mpr ⟨workers, timeout, limit, h₁, h₂, h₃, rfl⟩⟩

theorem apply_eq_error_iff (processors : Option Nat) (mapping : List (Value × Value))
    (fault : RangeFault) : apply processors mapping = .error fault ↔ Overflows mapping := by
  have hok := exists_apply_eq_ok_iff processors mapping
  cases fault
  cases hcase : apply processors mapping with
  | ok result =>
      rw [hcase] at hok
      exact iff_of_false (fun h => by cases h) (hok.mp ⟨result, rfl⟩)
  | error fault =>
      cases fault
      rw [hcase] at hok
      refine iff_of_true rfl (Classical.byContradiction fun hnone => ?_)
      obtain ⟨result, h⟩ := hok.mpr hnone
      cases h

/-! ## A mapping without a malformed setting -/

/-- The warnings but the one that a setting is malformed. -/
def others (setting : Setting) (warnings : List Warning) : List Warning :=
  warnings.filter (· ≠ .malformedSetting setting)

theorem others_append (setting : Setting) (first second : List Warning) :
    others setting (first ++ second) = others setting first ++ others setting second :=
  List.filter_append ..

theorem others_singleton (setting : Setting) :
    others setting [.malformedSetting setting] = [] := by
  simp [others]

theorem others_eq_self {setting : Setting} {warnings : List Warning}
    (h : ∀ w ∈ warnings, w ≠ .malformedSetting setting) : others setting warnings = warnings :=
  List.filter_eq_self.mpr fun w hw => decide_eq_true (h w hw)

section Without

variable {mapping : List (Value × Value)} {deleted : Setting} {value : Value}
  (hgiven : pick? (scope mapping) deleted = some value)
  (hbad : isMalformed deleted value = true)

include hgiven hbad

/-- Without a malformed setting each number is what it was. -/
theorem numberOr_without {α : Type} {cast : Value → Cast α} {setting : Setting}
    (hcast : CastsFor cast setting) {default a : α} {warnings : List Warning}
    (h : numberOr cast (scope mapping) setting default = .ok (a, warnings)) :
    numberOr cast (scope (without deleted mapping)) setting default =
      .ok (a, others deleted warnings) := by
  by_cases heq : setting = deleted
  · subst heq
    rw [numberOr_malformed hcast default hgiven hbad] at h
    cases h
    rw [others_singleton]
    exact numberOr_none default cast (by rw [pick?_without, if_pos rfl])
  · have hsame : pick? (scope (without deleted mapping)) setting =
        pick? (scope mapping) setting := by
      rw [pick?_without, if_neg heq]
    have hothers : others deleted warnings = warnings :=
      others_eq_self fun w hw => by
        rw [warning_of_numberOr default h hw]
        exact fun hw => heq (Warning.malformedSetting.inj hw)
    rw [hothers, ← h]
    simp only [numberOr, hsame]

/-- Without a malformed setting all names are what they were, and those of the setting are what the
default gives. -/
theorem clean_without {β : Type} {clean : Value → β × List Warning} {setting : Setting}
    {nothing : β} (hclean : CleansFor clean setting nothing) {default : Value}
    (hdefault : (clean default).2 = []) :
    let raw := (pick? (scope mapping) setting).getD default
    clean ((pick? (scope (without deleted mapping)) setting).getD default) =
      (if setting = deleted then (clean default).1 else (clean raw).1,
        others deleted (clean raw).2) ∧
    (setting = deleted → (clean raw).1 = nothing) := by
  by_cases heq : setting = deleted
  · subst heq
    have hcleared : clean default = ((clean default).1, []) := by rw [← hdefault]
    simp only [hgiven, pick?_without, if_true, Option.getD_some, Option.getD_none,
      hclean.malformed value hbad, others_singleton]
    exact ⟨hcleared, fun _ => trivial⟩
  · have hothers : others deleted (clean ((pick? (scope mapping) setting).getD default)).2 =
        (clean ((pick? (scope mapping) setting).getD default)).2 :=
      others_eq_self fun w hw h => by
        rcases hclean.warnings _ w hw with hw | hw
        · exact heq (Warning.malformedSetting.inj (hw.symm.trans h))
        · rw [hw] at h
          cases h
    simp only [pick?_without, heq, if_false, hothers, Prod.mk.eta, false_implies, and_self]

/-- Names for which the default gives nothing are what they were. -/
theorem clean_without_of_nothing {β : Type} {clean : Value → β × List Warning} {setting : Setting}
    {nothing : β} (hclean : CleansFor clean setting nothing) {default : Value}
    (hdefault : clean default = (nothing, [])) :
    let raw := (pick? (scope mapping) setting).getD default
    clean ((pick? (scope (without deleted mapping)) setting).getD default) =
      ((clean raw).1, others deleted (clean raw).2) := by
  obtain ⟨hcleaned, hnothing⟩ := clean_without hgiven hbad hclean (congrArg Prod.snd hdefault)
  dsimp only
  rw [hcleaned, hdefault]
  split
  · rename_i heq
    rw [hnothing heq]
  · rfl

/-- A malformed setting is told. -/
theorem malformedSetting_mem {result : ScanOptions × List Warning}
    (h : apply processors mapping = .ok result) : .malformedSetting deleted ∈ result.2 := by
  obtain ⟨workers, timeout, limit, h₁, h₂, h₃, rfl⟩ := apply_eq_ok_iff.mp h
  simp only [ofRaw_eq, rawOf, List.mem_append]
  cases deleted with
  | maxWorkers =>
      rw [numberOr_malformed castsFor_maxWorkers _ hgiven hbad] at h₁
      cases h₁
      simp
  | readTimeout =>
      rw [numberOr_malformed castsFor_readTimeout _ hgiven hbad] at h₂
      cases h₂
      simp
  | criticalLimit =>
      rw [numberOr_malformed castsFor_criticalLimit _ hgiven hbad] at h₃
      cases h₃
      simp
  | includeExtensions =>
      simp [hgiven, cleansFor_cleanExtensions.malformed value hbad]
  | excludeFolders =>
      simp [hgiven, cleansFor_cleanFolders.malformed value hbad]
  | mainFile =>
      simp [hgiven, cleansFor_cleanMainFile.malformed value hbad]

/-- **Without a malformed setting the mapping gives what it gave**, but for folders that are no list
of names: with them no folder is left out, and without them the default ones are. -/
theorem apply_without {result : ScanOptions × List Warning}
    (h : apply processors mapping = .ok result) :
    ∃ options, apply processors (without deleted mapping) =
        .ok (options, others deleted result.2) ∧
      result.1 = if deleted = .excludeFolders then
        { options with excludeFolders := OrderedSet.empty } else options := by
  obtain ⟨workers, timeout, limit, h₁, h₂, h₃, rfl⟩ := apply_eq_ok_iff.mp h
  have hworkers := numberOr_without hgiven hbad castsFor_maxWorkers h₁
  have htimeout := numberOr_without hgiven hbad castsFor_readTimeout h₂
  have hlimit := numberOr_without hgiven hbad castsFor_criticalLimit h₃
  have hext := clean_without_of_nothing hgiven hbad cleansFor_cleanExtensions
    (cleanExtensions_default processors)
  have hmain := clean_without_of_nothing hgiven hbad cleansFor_cleanMainFile
    (cleanMainFile_default processors)
  obtain ⟨hfolders, hnone⟩ := clean_without hgiven hbad cleansFor_cleanFolders
    (cleanFolders_default processors)
  let raw := rawOf processors (without deleted mapping) workers.1 timeout.1 limit.1
  refine ⟨(ScanOptions.ofRaw raw).1,
    apply_eq_ok_iff.mpr ⟨_, _, _, hworkers, htimeout, hlimit, ?_⟩, ?_⟩
  · simp only [raw, ofRaw_eq, rawOf, others_append, hext, hfolders, hmain]
  · simp only [raw, ofRaw_eq, rawOf, hext, hfolders, hmain]
    by_cases hdeleted : deleted = .excludeFolders
    · rw [if_pos hdeleted, hnone hdeleted.symm]
    · rw [if_neg hdeleted, if_neg fun h => hdeleted h.symm]

end Without

/-! ## Settings that are not given -/

/-- Whether two options are the same at a setting. -/
def SameAt : Setting → ScanOptions → ScanOptions → Prop
  | .includeExtensions, a, b => a.includeExtensions = b.includeExtensions
  | .excludeFolders, a, b => a.excludeFolders = b.excludeFolders
  | .mainFile, a, b => a.mainFile = b.mainFile
  | .maxWorkers, a, b => a.maxWorkers = b.maxWorkers
  | .readTimeout, a, b => a.readTimeout = b.readTimeout
  | .criticalLimit, a, b => a.criticalLimit = b.criticalLimit

/-- A setting that is not given is the default one. -/
theorem sameAt_default {mapping : List (Value × Value)} {setting : Setting}
    {result : ScanOptions × List Warning} (h : apply processors mapping = .ok result)
    (hnone : pick? (scope mapping) setting = none) :
    SameAt setting result.1 (ScanOptions.default processors) := by
  obtain ⟨workers, timeout, limit, h₁, h₂, h₃, rfl⟩ := apply_eq_ok_iff.mp h
  cases setting with
  | includeExtensions =>
      simp only [SameAt, ScanOptions.default, ofRaw_eq, rawOf, hnone, Option.getD_none]
  | excludeFolders =>
      simp only [SameAt, ScanOptions.default, ofRaw_eq, rawOf, hnone, Option.getD_none]
  | mainFile =>
      simp only [SameAt, ScanOptions.default, ofRaw_eq, rawOf, hnone, Option.getD_none]
  | maxWorkers =>
      rw [numberOr_none _ _ hnone] at h₁
      cases h₁
      rfl
  | readTimeout =>
      rw [numberOr_none _ _ hnone] at h₂
      cases h₂
      rfl
  | criticalLimit =>
      rw [numberOr_none _ _ hnone] at h₃
      cases h₃
      rfl

/-! ## Settings files -/

/-- The text of a settings file stops a scan: the reader fails in another way than that the text is
not in its format, or the mapping that it gives holds a setting that is out of range. -/
inductive Stops (host : Host) (format : Format) (text : List Char) : ReadFault → Prop
  | reader {fault : ReadFault} (h : format.read host text = .error fault)
      (hother : fault ≠ .malformed) : Stops host format text fault
  | range {mapping : List (Value × Value)} (h : format.read host text = .ok (.mapping mapping))
      (hrange : Overflows mapping) : Stops host format text .outOfRange

theorem optionsOfText_eq_error_iff (host : Host) (format : Format) (text : List Char)
    (fault : ReadFault) :
    optionsOfText host format text = .error fault ↔ Stops host format text fault := by
  unfold optionsOfText
  constructor
  · intro h
    split at h
    · cases h
    · rename_i fault' hother hread
      cases h
      exact .reader hread hother
    · cases h
    · rename_i mapping hread
      cases hcase : apply host.processors mapping with
      | ok result =>
          rw [hcase] at h
          cases h
      | error rangeFault =>
          rw [hcase] at h
          cases h
          exact .range hread ((apply_eq_error_iff host.processors mapping rangeFault).mp hcase)
    · cases h
  · intro h
    cases h with
    | reader hread hother =>
        rw [hread]
        cases fault <;> first | rfl | exact absurd rfl hother
    | range hread hrange =>
        simp only [hread, (apply_eq_error_iff host.processors _ .overflow).mpr hrange]
        rfl

theorem load_eq_error_iff (host : Host) (fs : FileSystem) (path : String) (fault : ReadFault) :
    load host fs path = .error fault ↔
      ∃ text, (fs.bytes? path).bind Text.Utf8.strict? = some text ∧
        Stops host (.ofPath path) text fault := by
  unfold load
  split
  · rename_i hnone
    simp [hnone]
  · rename_i text htext
    rw [optionsOfText_eq_error_iff, htext]
    simp

/-! ## Settings and settings files -/

/-- **What settings come to.**  A mapping gives options exactly if no setting is out of range.  A
malformed setting is told, and without it the mapping gives the same options and the other warnings,
with the default at the setting; only folders that are no list of names leave no folder out instead
of the default ones.  A settings file stops a scan exactly if its text does. -/
theorem apply_load_exact (host : Host) (mapping : List (Value × Value)) (fs : FileSystem)
    (path : String) :
    ((∃ result, apply host.processors mapping = .ok result) ↔ ¬ Overflows mapping) ∧
    (∀ options warnings, apply host.processors mapping = .ok (options, warnings) →
      ∀ setting value, pick? (scope mapping) setting = some value →
        isMalformed setting value = true →
        .malformedSetting setting ∈ warnings ∧
        ∃ options', apply host.processors (without setting mapping) =
            .ok (options', others setting warnings) ∧
          SameAt setting options' (ScanOptions.default host.processors) ∧
          options = if setting = .excludeFolders then
            { options' with excludeFolders := OrderedSet.empty } else options') ∧
    ∀ fault, load host fs path = .error fault ↔
      ∃ text, (fs.bytes? path).bind Text.Utf8.strict? = some text ∧
        Stops host (.ofPath path) text fault := by
  refine ⟨exists_apply_eq_ok_iff host.processors mapping, ?_, load_eq_error_iff host fs path⟩
  intro options warnings h setting value hgiven hbad
  obtain ⟨options', hwithout, hoptions⟩ := apply_without hgiven hbad h
  have hnone : pick? (scope (without setting mapping)) setting = none := by
    rw [pick?_without, if_pos rfl]
  exact ⟨malformedSetting_mem hgiven hbad h, options', hwithout, sameAt_default hwithout hnone,
    hoptions⟩

/-- A machine with six processors. -/
def sixProcessors : Host where
  processors := some 6
  readYaml := Yaml.read

/-- A text that names an infinite number of workers. -/
def infiniteText : List Char :=
  ['\x7b', '"', 'm', 'a', 'x', 'W', 'o', 'r', 'k', 'e', 'r', 's', '"', ':', ' ',
    'I', 'n', 'f', 'i', 'n', 'i', 't', 'y', '\x7d']

/-- A folder that holds a settings file with that text. -/
def infiniteFolder : FileSystem :=
  let content := Content.bytes (infiniteText.map fun c => UInt8.ofNat c.toNat)
  ⟨.folder "" Faults.none [.file "s.json" Faults.none content], [], fun _ => none⟩

/-- Settings of which two are malformed and two are not. -/
def mixedSettings : List (Value × Value) :=
  [(.text "projectGraph", .mapping [
    (.text "maxWorkers", .float Number.notANumber),
    (.text "exclude_folders", .int 5),
    (.text "mainFile", .text "./a.py"),
    (.text "criticalLimit", .text " 1_0 ")])]

theorem apply_load_exact_mixedSettings :
    ∃ options,
      apply sixProcessors.processors mixedSettings =
        .ok (options, [.malformedSetting .maxWorkers, .malformedSetting .excludeFolders]) ∧
      pick? (scope mixedSettings) .excludeFolders = some (.int 5) ∧
      isMalformed .excludeFolders (.int 5) = true ∧
      ∃ options',
        apply sixProcessors.processors (without .excludeFolders mixedSettings) =
          .ok (options', [.malformedSetting .maxWorkers]) ∧
        SameAt .excludeFolders options' (ScanOptions.default sixProcessors.processors) ∧
        options = { options' with excludeFolders := OrderedSet.empty } := by
  have hgiven : pick? (scope mixedSettings) .excludeFolders = some (.int 5) := rfl
  have hbad : isMalformed .excludeFolders (.int 5) = true := rfl
  obtain ⟨options, happly⟩ : ∃ options, apply sixProcessors.processors mixedSettings =
      .ok (options, [.malformedSetting .maxWorkers, .malformedSetting .excludeFolders]) :=
    ⟨_, rfl⟩
  obtain ⟨-, options', hwithout, hsame, hoptions⟩ :=
    (apply_load_exact sixProcessors mixedSettings infiniteFolder "s.json").2.1 _ _ happly _ _
      hgiven hbad
  exact ⟨options, happly, hgiven, hbad, options', hwithout, hsame, hoptions⟩

/-- An infinite number of workers stops a scan, in a mapping as in a file, and folders that are no
list of names do not leave the default. -/
theorem infinite_workers_stop :
    apply sixProcessors.processors [(.text "maxWorkers", .float Number.infinity)] =
        .error .overflow ∧
      load sixProcessors infiniteFolder "s.json" = .error .outOfRange ∧
      ∃ options,
        apply sixProcessors.processors [(.text "excludeFolders", .int 5)] =
          .ok (options, [.malformedSetting .excludeFolders]) ∧
        ¬ SameAt .excludeFolders options (ScanOptions.default sixProcessors.processors) := by
  have htext : (infiniteFolder.bytes? "s.json").bind Text.Utf8.strict? = some infiniteText := by cbv
  have hread : optionsOfText sixProcessors (.ofPath "s.json") infiniteText =
      .error .outOfRange := by rfl
  have hdefault : OrderedSet.empty ≠
      (ScanOptions.default sixProcessors.processors).excludeFolders := fun h =>
    absurd (congrArg OrderedSet.toList h) (by decide)
  refine ⟨rfl, ?_, _, rfl, hdefault⟩
  unfold load
  rw [htext]
  exact hread

end SourceAtlas.Settings
