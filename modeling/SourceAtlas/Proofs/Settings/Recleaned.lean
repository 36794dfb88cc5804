/-
# SourceAtlas.Proofs.Settings.Recleaned — cleaning what was cleaned.

Names are cleaned in one fixed sequence of steps.  Extensions come out in a form that cleaning
keeps.  For folders and the main file a later step can lay bare what an earlier one takes away: the
separators around `build /` are dropped after its white space, and the blank before the slash stays.
So options are rebuilt from their own fields exactly if no folder and no main file has white space
at an end (`ofRaw_again`), and there are values for which one has (`barredFolder_recleaned`).
-/
import Mathlib.Data.Finset.Max
import SourceAtlas.Proofs.Path.Spelling
import SourceAtlas.Proofs.Settings.Apply
import SourceAtlas.Proofs.Text.Ends

namespace SourceAtlas

open Settings Text

/-! ## Clean names -/

/-- The form of an extension that was cleaned. -/
structure IsExtension (ext : String) : Prop where
  dotted : ext.toList.head? = some '.'
  long : 2 ≤ ext.toList.length
  lowered : lower ext = ext
  tight : Tight ext.toList

/-- The form of a folder name that was cleaned.  Nothing is said of white space at its ends. -/
structure IsFolder (folder : String) : Prop where
  nonempty : folder.toList ≠ []
  lowered : lower folder = folder
  bare : TrimmedBy isSeparator folder.toList

/-- The form of a main file that was cleaned.  Nothing is said of white space at its ends. -/
structure IsMainFile (path : String) : Prop where
  nonempty : path ≠ ""
  slashed : '\\' ∉ path.toList
  direct : ¬ dotSlash <+: path.toList

/-! ## Extensions -/

/-- A trimmed text in lower case is an extension with a dot in front of it. -/
theorem IsExtension.of_dot {core : String} (hne : core ≠ "") (hlowered : lower core = core)
    (htight : Tight core.toList) : IsExtension ("." ++ core) := by
  have hlist : ("." ++ core).toList = '.' :: core.toList := String.toList_append
  have hchars : core.toList ≠ [] := by simpa using hne
  refine ⟨by rw [hlist]; rfl, ?_, ?_, ?_, ?_⟩
  · rw [hlist, List.length_cons]
    exact Nat.succ_le_succ (List.length_pos_iff.mpr hchars)
  · have hdot : IsLowered '.' := by
      unfold IsLowered
      decide +kernel
    rw [lower_eq_self_iff, hlist]
    exact List.forall_mem_cons.mpr ⟨hdot, lower_eq_self_iff.mp hlowered⟩
  · rw [hlist]
    intro c hc
    cases hc
    decide
  · rw [hlist, List.getLast?_cons_of_ne_nil hchars]
    exact htight.2

theorem IsExtension.of_cleanExtension? {name ext : String} (h : cleanExtension? name = some ext) :
    IsExtension ext := by
  obtain ⟨-, -, -, -, htrim, -⟩ := exists_eq_trim name.toList
  have htight : Tight (lower (trimmed name)).toList := by
    rw [lower, trimmed, String.toList_ofList, String.toList_ofList]
    exact htrim.lowerChars
  have hlowered : lower (lower (trimmed name)) = lower (trimmed name) := lower_lower _
  unfold cleanExtension? at h
  generalize lower (trimmed name) = core at h htight hlowered
  simp only [Bool.or_eq_true, String.isEmpty_iff, decide_eq_true_eq] at h
  split at h
  · cases h
  · rename_i hcore
    obtain ⟨hne, hdot⟩ := not_or.mp hcore
    split at h
    · rename_i hbegins
      cases h
      have hdotted : ext.toList.head? = some '.' := eq_of_beq hbegins
      refine ⟨hdotted, ?_, hlowered, htight⟩
      obtain ⟨rest, hrest⟩ := List.head?_eq_some_iff.mp hdotted
      rw [hrest]
      cases rest with
      | nil => exact absurd (String.toList_inj.mp hrest) hdot
      | cons c rest => simp
    · cases h
      exact IsExtension.of_dot hne hlowered htight

/-- An extension that was cleaned is cleaned to itself. -/
theorem IsExtension.cleanExtension? {ext : String} (h : IsExtension ext) :
    cleanExtension? ext = some ext := by
  have htrimmed : trimmed ext = ext := by
    rw [trimmed, trim_eq_self_iff.mpr h.tight, String.ofList_toList]
  have hlong := h.long
  unfold SourceAtlas.cleanExtension?
  simp only [htrimmed, h.lowered]
  rw [if_neg, if_pos]
  · unfold beginsWith
    rw [h.dotted]
    rfl
  · simp only [Bool.or_eq_true, String.isEmpty_iff, decide_eq_true_eq]
    rintro (rfl | rfl)
    · exact absurd hlong (by decide)
    · exact absurd hlong (by decide)

/-! ## Folders -/

theorem cleanFolder?_eq_some_iff {name folder : String} :
    cleanFolder? name = some folder ↔ folder.toList ≠ [] ∧
      folder.toList = lowerChars (trimBy isSeparator (trim name.toList)) := by
  unfold cleanFolder?
  simp only
  generalize lowerChars (trimBy isSeparator (trim name.toList)) = core
  constructor
  · intro h
    split at h
    · cases h
    · rename_i hne
      cases h
      rw [String.toList_ofList]
      exact ⟨by simpa using hne, rfl⟩
  · rintro ⟨hne, rfl⟩
    rw [String.ofList_toList, if_neg]
    simpa using hne

theorem IsFolder.of_cleanFolder? {name folder : String} (h : cleanFolder? name = some folder) :
    IsFolder folder := by
  obtain ⟨hne, hfolder⟩ := cleanFolder?_eq_some_iff.mp h
  obtain ⟨-, -, -, -, hbare, -⟩ := exists_eq_trimBy isSeparator (trim name.toList)
  refine ⟨hne, ?_, ?_⟩
  · rw [lower_eq_self_iff, hfolder]
    exact fun c hc => isLowered_of_mem_lowerFrom hc
  · rw [hfolder]
    exact hbare.lowerChars fun _ => isMark_of_isSeparator

/-- What cleaning makes of a folder that was cleaned is a part of it. -/
theorem IsFolder.lowerChars_trimBy {folder : String} (h : IsFolder folder) :
    lowerChars (trimBy isSeparator (trim folder.toList)) =
      trimBy isSeparator (trim folder.toList) := by
  apply lowerFrom_of_isLowered
  intro c hc
  have hpart := (trimBy_isInfix isSeparator (trim folder.toList)).trans
    (trimBy_isInfix isBlank folder.toList)
  exact lower_eq_self_iff.mp h.lowered c (hpart.subset hc)

/-- A folder that was cleaned and has no white space at its ends is cleaned to itself. -/
theorem IsFolder.cleanFolder?_of_tight {folder : String} (h : IsFolder folder)
    (htight : Tight folder.toList) : cleanFolder? folder = some folder := by
  refine cleanFolder?_eq_some_iff.mpr ⟨h.nonempty, ?_⟩
  rw [h.lowerChars_trimBy, trim_eq_self_iff.mpr htight, trimBy_eq_self_iff.mpr h.bare]

/-- A folder that was cleaned and has white space at an end is cleaned to a shorter one. -/
theorem IsFolder.length_lt_of_cleanFolder? {folder again : String} (h : IsFolder folder)
    (hloose : ¬ Tight folder.toList) (hagain : cleanFolder? folder = some again) :
    again.toList.length < folder.toList.length := by
  obtain ⟨-, heq⟩ := cleanFolder?_eq_some_iff.mp hagain
  have hshorter := (trimBy_isInfix isSeparator (trim folder.toList)).length_le
  rw [heq, h.lowerChars_trimBy]
  exact Nat.lt_of_not_le fun hle => hloose (tight_of_length_le (hle.trans hshorter))

/-! ## The main file -/

/-- A text names the path that it means, unless that is nothing. -/
theorem cleanMainFile_text_eq_iff {text path : String} :
    (cleanMainFile (.text text)).1 = some path ↔ path ≠ "" ∧ spelledPath text = path := by
  unfold cleanMainFile
  simp only [Option.filter_eq_some_iff, Option.some.injEq, Bool.not_eq_true',
    String.isEmpty_eq_false_iff]
  exact and_comm

theorem IsMainFile.of_cleanMainFile {raw : Value} {path : String}
    (h : (cleanMainFile raw).1 = some path) : IsMainFile path := by
  cases raw with
  | text s =>
      obtain ⟨hne, hpath⟩ := cleanMainFile_text_eq_iff.mp h
      rw [← hpath] at hne ⊢
      exact ⟨hne, backslash_not_mem_spelledPath s, not_prefix_spelledPath s⟩
  | _ => cases h

/-- A main file that was cleaned is cleaned to itself exactly if it is trimmed. -/
theorem IsMainFile.cleanMainFile_eq_iff {path : String} (h : IsMainFile path) :
    cleanMainFile (.text path) = (some path, []) ↔ Tight path.toList := by
  rw [← spelledPath_eq_self_iff h.slashed h.direct, Prod.ext_iff, cleanMainFile_text_eq_iff]
  constructor
  · exact fun hclean => hclean.1.2
  · exact fun hpath => ⟨⟨h.nonempty, hpath⟩, rfl⟩

/-! ## Sets of clean names -/

/-- A set of names as a raw value. -/
def namesValue (names : NameSet) : Value :=
  .set (names.toList.map .text)

/-- A main file, or none, as a raw value. -/
def mainFileValue : Option String → Value
  | some path => .text path
  | none => .null

theorem rawNames_namesValue (setting : Setting) (names : NameSet) :
    rawNames setting (namesValue names) = (names.toList, []) :=
  textsOf_texts setting names.toList

/-- A set is cleaned to itself exactly if all its names are kept, where cleaning keeps the names of
a kind and makes every other one shorter: the longest of the others would be missing. -/
theorem ofList_filterMap_eq_self_iff {clean : String → Option String} {kept : String → Prop}
    {names : NameSet} (hkept : ∀ name ∈ names, kept name → clean name = some name)
    (hshorter : ∀ name ∈ names, ¬ kept name → ∀ again, clean name = some again →
      again.toList.length < name.toList.length) :
    OrderedSet.ofList (names.toList.filterMap clean) = names ↔ ∀ name ∈ names, kept name := by
  classical
  constructor
  · intro hsame
    by_contra hnot
    obtain ⟨name, hname, hother⟩ : ∃ name ∈ names, ¬ kept name := by simpa using hnot
    let others := names.toList.toFinset.filter (¬ kept ·)
    obtain ⟨longest, hmem, hmax⟩ := others.exists_max_image (·.toList.length)
      ⟨name, Finset.mem_filter.mpr ⟨List.mem_toFinset.mpr hname, hother⟩⟩
    obtain ⟨hlongest, hlongestOther⟩ := Finset.mem_filter.mp hmem
    rw [List.mem_toFinset, ← OrderedSet.mem_def, ← hsame, OrderedSet.mem_ofList,
      List.mem_filterMap] at hlongest
    obtain ⟨origin, horigin, hclean⟩ := hlongest
    by_cases hkeeps : kept origin
    · rw [hkept origin horigin hkeeps] at hclean
      cases hclean
      exact hlongestOther hkeeps
    · have hlt := hshorter origin horigin hkeeps longest hclean
      have hle := hmax origin (Finset.mem_filter.mpr ⟨List.mem_toFinset.mpr horigin, hkeeps⟩)
      omega
  · intro hall
    apply OrderedSet.ext_mem
    intro name
    rw [OrderedSet.mem_ofList, List.mem_filterMap]
    constructor
    · rintro ⟨origin, horigin, hclean⟩
      rw [hkept origin horigin (hall origin horigin)] at hclean
      cases hclean
      exact horigin
    · intro hname
      exact ⟨name, hname, hkept name hname (hall name hname)⟩

theorem cleanExtensions_namesValue {names : NameSet} (h : ∀ ext ∈ names, IsExtension ext) :
    cleanExtensions (namesValue names) = (names, []) := by
  have hkept : ∀ ext ∈ names, IsExtension ext → cleanExtension? ext = some ext :=
    fun _ _ hext => hext.cleanExtension?
  have hsame := (ofList_filterMap_eq_self_iff hkept
    fun ext hext hnot => absurd (h ext hext) hnot).mpr h
  unfold cleanExtensions
  rw [rawNames_namesValue]
  exact Prod.ext hsame rfl

theorem cleanFolders_namesValue_eq_iff {names : NameSet} (h : ∀ folder ∈ names, IsFolder folder) :
    cleanFolders (namesValue names) = (names, []) ↔ ∀ folder ∈ names, Tight folder.toList := by
  have hkept : ∀ folder ∈ names, Tight folder.toList → cleanFolder? folder = some folder :=
    fun folder hfolder => (h folder hfolder).cleanFolder?_of_tight
  have hsame := ofList_filterMap_eq_self_iff hkept
    fun folder hfolder hloose _ => (h folder hfolder).length_lt_of_cleanFolder? hloose
  unfold cleanFolders
  rw [rawNames_namesValue, Prod.ext_iff, ← hsame]
  exact and_iff_left rfl

theorem cleanMainFile_mainFileValue_eq_iff {mainFile : Option String}
    (h : ∀ path ∈ mainFile, IsMainFile path) :
    cleanMainFile (mainFileValue mainFile) = (mainFile, []) ↔
      ∀ path ∈ mainFile, Tight path.toList := by
  cases mainFile with
  | none => exact iff_of_true rfl fun _ hpath => by cases hpath
  | some path =>
      rw [mainFileValue, (h path rfl).cleanMainFile_eq_iff]
      exact ⟨fun htight _ hpath => Option.some.inj hpath ▸ htight, fun hall => hall path rfl⟩

/-! ## Options rebuilt from their fields -/

/-- The names of options are clean. -/
structure ScanOptions.IsClean (options : ScanOptions) : Prop where
  extensions : ∀ ext ∈ options.includeExtensions, IsExtension ext
  folders : ∀ folder ∈ options.excludeFolders, IsFolder folder
  mainFile : ∀ path ∈ options.mainFile, IsMainFile path

/-- The fields of options as raw values. -/
def ScanOptions.fields (options : ScanOptions) : ScanOptions.Raw where
  includeExtensions := namesValue options.includeExtensions
  excludeFolders := namesValue options.excludeFolders
  mainFile := mainFileValue options.mainFile
  maxWorkers := options.maxWorkers
  readTimeout := options.readTimeout
  criticalLimit := options.criticalLimit
  partialOnCancel := options.partialOnCancel

theorem ScanOptions.isClean_ofRaw (raw : ScanOptions.Raw) :
    (ScanOptions.ofRaw raw).1.IsClean where
  extensions ext hext := by
    obtain ⟨name, -, hclean⟩ := List.mem_filterMap.mp (OrderedSet.mem_ofList.mp hext)
    exact IsExtension.of_cleanExtension? hclean
  folders folder hfolder := by
    obtain ⟨name, -, hclean⟩ := List.mem_filterMap.mp (OrderedSet.mem_ofList.mp hfolder)
    exact IsFolder.of_cleanFolder? hclean
  mainFile _ hpath := IsMainFile.of_cleanMainFile hpath

/-- **What was cleaned is cleaned again to itself, but for white space that was laid bare.**
Whatever the raw values are, the names are clean, extensions stay as they are, and folders and the
main file do exactly if none of them has white space at an end; so much decides whether options
rebuilt from their fields are the same. -/
theorem ScanOptions.ofRaw_again (raw : ScanOptions.Raw) :
    let options := (ScanOptions.ofRaw raw).1
    options.IsClean ∧
    cleanExtensions (namesValue options.includeExtensions) = (options.includeExtensions, []) ∧
    (cleanFolders (namesValue options.excludeFolders) = (options.excludeFolders, []) ↔
      ∀ folder ∈ options.excludeFolders, Tight folder.toList) ∧
    (cleanMainFile (mainFileValue options.mainFile) = (options.mainFile, []) ↔
      ∀ path ∈ options.mainFile, Tight path.toList) ∧
    (ScanOptions.ofRaw options.fields = (options, []) ↔
      (∀ folder ∈ options.excludeFolders, Tight folder.toList) ∧
        ∀ path ∈ options.mainFile, Tight path.toList) := by
  intro options
  have hclean : options.IsClean := ScanOptions.isClean_ofRaw raw
  have hextensions := cleanExtensions_namesValue hclean.extensions
  have hfolders := cleanFolders_namesValue_eq_iff hclean.folders
  have hmain := cleanMainFile_mainFileValue_eq_iff hclean.mainFile
  refine ⟨hclean, hextensions, hfolders, hmain, ?_⟩
  rw [← hfolders, ← hmain]
  have hworkers : max 1 options.maxWorkers = options.maxWorkers :=
    max_eq_right (le_max_left 1 raw.maxWorkers)
  have hlimit : max 0 options.criticalLimit = options.criticalLimit :=
    max_eq_right (le_max_left 0 raw.criticalLimit)
  constructor
  · intro hsame
    rw [ofRaw_eq, Prod.mk.injEq, List.append_eq_nil_iff, List.append_eq_nil_iff] at hsame
    obtain ⟨hoptions, ⟨-, hwarnings⟩, hwarnings'⟩ := hsame
    exact ⟨Prod.ext (congrArg ScanOptions.excludeFolders hoptions) hwarnings,
      Prod.ext (congrArg ScanOptions.mainFile hoptions) hwarnings'⟩
  · rintro ⟨hsame, hsame'⟩
    rw [ofRaw_eq]
    simp only [ScanOptions.fields, hextensions, hsame, hsame', hworkers, hlimit, List.append_nil]

/-- A folder and a main file that are cleaned once more: dropping the slash around `build /` lays a
blank bare, and so does dropping the `./` of a main file. -/
theorem barredFolder_recleaned :
    let folders := (cleanFolders (.list [.text "build /"])).1
    let mainFile := (cleanMainFile (.text "./ a.py")).1
    folders.toList = ["build "] ∧ (cleanFolders (namesValue folders)).1.toList = ["build"] ∧
      mainFile = some " a.py" ∧ (cleanMainFile (mainFileValue mainFile)).1 = some "a.py" := by
  decide +kernel

end SourceAtlas
