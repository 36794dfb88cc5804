/-
# SourceAtlas.Proofs.Settings.Malformed — values that a setting can make nothing of.

Which values are malformed or out of range is said here by the kind of the value and of the setting
alone, with the standard library's words for doubles.  A cast to a number tells both kinds apart
exactly (`CastsFor`), and cleaning names tells what is malformed (`CleansFor`); all further proofs
know casts and cleaning by these two structures.
-/
import SourceAtlas.Proofs.Number.Range
import SourceAtlas.Proofs.Settings.Without

namespace SourceAtlas.Settings

/-! ## Values that are of no use -/

/-- Whether the value may list names: a text or a collection does, and null lists none. -/
def saysNames : Value → Bool
  | .null => true
  | .text _ => true
  | .list _ => true
  | .tuple _ => true
  | .set _ => true
  | _ => false

/-- Whether the value may name a file: a text does, and null names none. -/
def saysFile : Value → Bool
  | .null => true
  | .text _ => true
  | _ => false

/-- Whether the value may say a number: a number, a truth value and a text that is read as a number
do, and null says none. -/
def saysNumber (reads : List Char → Bool) : Value → Bool
  | .null => true
  | .bool _ => true
  | .int _ => true
  | .float _ => true
  | .text s => reads s.toList
  | .bytes content => reads (asciiText content)
  | _ => false

/-- Whether the value may say an integer, however large; the double that is no number may not. -/
def saysInteger : Value → Bool
  | .float x => !x.isNaN
  | value => saysNumber (fun text => (Number.readInt? text).isSome) value

/-- Whether the value may say a real number, however large. -/
def saysReal : Value → Bool :=
  saysNumber fun text => (Number.readFloat? text).isSome

/-- Whether the value is of a kind that the setting can make nothing of. -/
def isMalformed : Setting → Value → Bool
  | .includeExtensions, value => !saysNames value
  | .excludeFolders, value => !saysNames value
  | .mainFile, value => !saysFile value
  | .maxWorkers, value => !saysInteger value
  | .readTimeout, value => !saysReal value
  | .criticalLimit, value => !saysInteger value

/-- Whether the value is a number that the setting cannot hold: infinite where an integer is wanted,
or an integer without a double where a double is. -/
def isOutOfRange : Setting → Value → Bool
  | .maxWorkers, .float x => x.isInf
  | .criticalLimit, .float x => x.isInf
  | .readTimeout, .int n => decide (Number.overflowLimit ≤ n.natAbs)
  | _, _ => false

/-- Some setting of the mapping is out of range. -/
def Overflows (mapping : List (Value × Value)) : Prop :=
  ∃ setting value, pick? (scope mapping) setting = some value ∧ isOutOfRange setting value = true

/-- A value that is null is as if it was not given. -/
theorem ne_null_of_pick? {entries : List (Value × Value)} {setting : Setting} {value : Value}
    (h : pick? entries setting = some value) : value ≠ .null := by
  rintro rfl
  unfold pick? at h
  split at h
  · cases h
  · rename_i hfound
    exact hfound h

/-! ## Casts -/

/-- A cast tells exactly the malformed values and those out of range of a setting. -/
structure CastsFor {α : Type} (cast : Value → Cast α) (setting : Setting) : Prop where
  malformed : ∀ value, value ≠ .null →
    (cast value = .malformed ↔ isMalformed setting value = true)
  outOfRange : ∀ value, cast value = .outOfRange ↔ isOutOfRange setting value = true

theorem ofOption_eq_malformed_iff {α : Type} (found : Option α) :
    Cast.ofOption found = .malformed ↔ found.isSome = false := by
  cases found <;> simp [Cast.ofOption]

theorem ofOption_ne_outOfRange {α : Type} (found : Option α) :
    Cast.ofOption found ≠ .outOfRange := by
  cases found <;> simp [Cast.ofOption]

/-- A double has an integer part unless it is no number or infinite, and the two differ in kind. -/
theorem castInt_float (x : Float) :
    (castInt (.float x) = .malformed ↔ x.isNaN = true) ∧
      (castInt (.float x) = .outOfRange ↔ x.isInf = true) := by
  have htrunc : Number.truncate? x = none ↔ x.isNaN = true ∨ x.isInf = true := by
    rw [← Number.dyadic?_eq_none_iff]
    unfold Number.truncate?
    rw [Option.map_eq_none_iff]
  unfold castInt
  cases hcase : Number.truncate? x with
  | some n =>
      have hfinite : ¬ (x.isNaN = true ∨ x.isInf = true) := by
        rw [← htrunc, hcase]
        exact Option.some_ne_none n
      simp_all
  | none =>
      have hspecial := htrunc.mp hcase
      cases hnan : x.isNaN with
      | true =>
          have := Number.isInf_of_isNaN hnan
          simp_all
      | false => simp_all

theorem castInt_eq_malformed_iff {value : Value} (h : value ≠ .null) :
    castInt value = .malformed ↔ saysInteger value = false := by
  cases value with
  | float x => rw [(castInt_float x).1, saysInteger, Bool.not_eq_false']
  | null => exact absurd rfl h
  | _ => simp [castInt, saysInteger, saysNumber, ofOption_eq_malformed_iff]

theorem castInt_eq_outOfRange_iff (value : Value) :
    castInt value = .outOfRange ↔ isOutOfRange .maxWorkers value = true := by
  cases value with
  | float x => rw [(castInt_float x).2, isOutOfRange]
  | _ => simp [castInt, isOutOfRange, ofOption_ne_outOfRange]

theorem castFloat_int (n : Int) :
    castFloat (.int n) = .outOfRange ↔ Number.overflowLimit ≤ n.natAbs := by
  rw [← Number.ofInt?_eq_none_iff]
  cases hcase : Number.ofInt? n <;> simp [castFloat, hcase]

theorem castFloat_eq_malformed_iff {value : Value} (h : value ≠ .null) :
    castFloat value = .malformed ↔ saysReal value = false := by
  cases value with
  | null => exact absurd rfl h
  | int n => cases hcase : Number.ofInt? n <;> simp [castFloat, hcase, saysReal, saysNumber]
  | _ => simp [castFloat, saysReal, saysNumber, ofOption_eq_malformed_iff]

theorem castFloat_eq_outOfRange_iff (value : Value) :
    castFloat value = .outOfRange ↔ isOutOfRange .readTimeout value = true := by
  cases value with
  | int n => rw [castFloat_int, isOutOfRange, decide_eq_true_iff]
  | _ => simp [castFloat, isOutOfRange, ofOption_ne_outOfRange]

theorem castsFor_maxWorkers : CastsFor castInt .maxWorkers where
  malformed value h := by simp [castInt_eq_malformed_iff h, isMalformed]
  outOfRange value := castInt_eq_outOfRange_iff value

theorem castsFor_criticalLimit : CastsFor castInt .criticalLimit where
  malformed value h := by simp [castInt_eq_malformed_iff h, isMalformed]
  outOfRange value := by
    rw [castInt_eq_outOfRange_iff]
    cases value <;> rfl

theorem castsFor_readTimeout : CastsFor castFloat .readTimeout where
  malformed value h := by simp [castFloat_eq_malformed_iff h, isMalformed]
  outOfRange value := castFloat_eq_outOfRange_iff value

/-! ## Numbers of a mapping -/

section Numbers

variable {α : Type} {cast : Value → Cast α} {setting : Setting} (hcast : CastsFor cast setting)
  {entries : List (Value × Value)} (default : α)

theorem numberOr_none (cast : Value → Cast α) (h : pick? entries setting = none) :
    numberOr cast entries setting default = .ok (default, []) := by
  simp [numberOr, h]

include hcast

/-- A malformed number is told and leaves the default. -/
theorem numberOr_malformed {value : Value} (h : pick? entries setting = some value)
    (hbad : isMalformed setting value = true) :
    numberOr cast entries setting default = .ok (default, [.malformedSetting setting]) := by
  have hcase : cast value = .malformed := (hcast.malformed value (ne_null_of_pick? h)).mpr hbad
  simp [numberOr, h, hcase]

/-- A number is given exactly if it is not out of range. -/
theorem exists_numberOr_eq_ok_iff (entries : List (Value × Value)) :
    (∃ result, numberOr cast entries setting default = .ok result) ↔
      ∀ value, pick? entries setting = some value → isOutOfRange setting value = false := by
  unfold numberOr
  cases hpick : pick? entries setting with
  | none => simp
  | some value =>
      have hrange := hcast.outOfRange value
      cases hcase : cast value <;> simp_all

omit hcast in
/-- All that a number can be warned about is that it is malformed. -/
theorem warning_of_numberOr {a : α} {warnings : List Warning}
    (h : numberOr cast entries setting default = .ok (a, warnings)) {w : Warning}
    (hw : w ∈ warnings) : w = .malformedSetting setting := by
  unfold numberOr at h
  split at h
  · cases h
    cases hw
  · split at h
    · cases h
      cases hw
    · cases h
      exact List.mem_singleton.mp hw
    · cases h

end Numbers

/-! ## Names of a mapping -/

/-- What is made of a list of names or of a file: nothing of a malformed value, which is told, and
every other warning is about an entry of the list. -/
structure CleansFor {β : Type} (clean : Value → β × List Warning) (setting : Setting)
    (nothing : β) : Prop where
  malformed : ∀ value, isMalformed setting value = true →
    clean value = (nothing, [.malformedSetting setting])
  warnings : ∀ value, ∀ w ∈ (clean value).2,
    w = .malformedSetting setting ∨ w = .nonStringEntry setting

theorem warning_of_textsOf {setting : Setting} {items : List Value} {w : Warning}
    (hw : w ∈ (textsOf setting items).2) : w = .nonStringEntry setting := by
  induction items with
  | nil => cases hw
  | cons item rest ih =>
      cases item with
      | text s => exact ih hw
      | _ => exact (List.mem_cons.mp hw).elim id ih

theorem textsOf_texts (setting : Setting) (names : List String) :
    textsOf setting (names.map .text) = (names, []) := by
  induction names with
  | nil => rfl
  | cons name rest ih => simp [textsOf, ih]

theorem cleansFor_rawNames (setting : Setting)
    (h : ∀ value, isMalformed setting value = !saysNames value) :
    CleansFor (rawNames setting) setting [] where
  malformed value hbad := by
    rw [h] at hbad
    cases value with
    | null => cases hbad
    | text s => cases hbad
    | list items => cases hbad
    | tuple items => cases hbad
    | set items => cases hbad
    | _ => rfl
  warnings value w hw := by
    cases value with
    | null => cases hw
    | text s => cases hw
    | list items => exact Or.inr (warning_of_textsOf hw)
    | tuple items => exact Or.inr (warning_of_textsOf hw)
    | set items => exact Or.inr (warning_of_textsOf hw)
    | _ => exact Or.inl (List.mem_singleton.mp hw)

/-- What is made of cleaned names afterwards has no warnings of its own. -/
theorem CleansFor.map {β γ : Type} {clean : Value → β × List Warning} {setting : Setting}
    {nothing : β} (h : CleansFor clean setting nothing) (f : β → γ) :
    CleansFor (fun value => (f (clean value).1, (clean value).2)) setting (f nothing) where
  malformed value hbad := by rw [h.malformed value hbad]
  warnings := h.warnings

theorem cleansFor_cleanExtensions :
    CleansFor cleanExtensions .includeExtensions OrderedSet.empty :=
  (cleansFor_rawNames .includeExtensions fun _ => rfl).map fun names =>
    OrderedSet.ofList (names.filterMap cleanExtension?)

theorem cleansFor_cleanFolders : CleansFor cleanFolders .excludeFolders OrderedSet.empty :=
  (cleansFor_rawNames .excludeFolders fun _ => rfl).map fun names =>
    OrderedSet.ofList (names.filterMap cleanFolder?)

theorem cleansFor_cleanMainFile : CleansFor cleanMainFile .mainFile none where
  malformed value hbad := by
    cases value with
    | null => cases hbad
    | text s => cases hbad
    | _ => rfl
  warnings value w hw := by
    cases value with
    | null => cases hw
    | text s => cases hw
    | _ => exact Or.inl (List.mem_singleton.mp hw)

theorem cleanExtensions_default (processors : Option Nat) :
    cleanExtensions (ScanOptions.Raw.default processors).includeExtensions =
      (OrderedSet.empty, []) := rfl

theorem cleanMainFile_default (processors : Option Nat) :
    cleanMainFile (ScanOptions.Raw.default processors).mainFile = (none, []) := rfl

/-- The default folders are texts, which are taken without a warning. -/
theorem cleanFolders_default (processors : Option Nat) :
    (cleanFolders (ScanOptions.Raw.default processors).excludeFolders).2 = [] := by
  show (textsOf .excludeFolders (defaultExcluded.toList.map .text)).2 = []
  rw [textsOf_texts]

end SourceAtlas.Settings
