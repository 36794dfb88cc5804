/-
# SourceAtlas.Proofs.Text.Case — lowering twice is lowering once.

The lower-case form of a character is its own lower-case form, because no run of the table lowers a
code point into a run (`leavesAlone_caseRuns`), and because the two characters that are lowered by
rules of their own are no lower-case forms.  So a text in lower case stays as it is (`lower_lower`).
-/
import SourceAtlas.Text.Case

namespace SourceAtlas.Text

/-! ## Runs that are left alone -/

/-- Whether the code points from `low` to `high`, or every other one of them, are none of a run:
they lie below it, above it, or in the gaps of an alphabet of step two. -/
def CaseRun.isApart (run : CaseRun) (low high step : Nat) : Bool :=
  Nat.blt high run.first || (Nat.blt run.last low ||
    (Nat.beq run.step 2 && ((Nat.beq step 2 || Nat.beq low high) &&
      Nat.beq ((low - run.first) % 2) 1)))

/-- Whether the lower-case forms of a run are code points of none of the runs. -/
def CaseRun.leavesAlone (run : CaseRun) (others : List CaseRun) : Bool :=
  others.all (·.isApart (Int.toNat (run.first + run.shift)) (Int.toNat (run.last + run.shift))
    run.step)

/-- The capital I with a dot, as a run. -/
def dottedCapital : CaseRun := ⟨304, 304, 1, 0⟩

/-- No run lowers a code point into a run, or to the capital I with a dot. -/
theorem leavesAlone_caseRuns :
    (caseRuns.all (·.leavesAlone (dottedCapital :: caseRuns))) = true := by
  decide +kernel

/-- No run lowers a code point below zero. -/
theorem nonneg_caseRuns : ∀ run ∈ caseRuns, 0 ≤ run.first + run.shift := by
  decide +kernel

theorem CaseRun.not_contains_of_isApart {run other : CaseRun} {code : Nat}
    (hapart : other.isApart (Int.toNat (run.first + run.shift)) (Int.toNat (run.last + run.shift))
      run.step = true)
    (hfirst : 0 ≤ run.first + run.shift) (hcode : run.contains code = true) :
    other.contains (Int.toNat (code + run.shift)) = false := by
  unfold contains at hcode ⊢
  unfold isApart at hapart
  simp only [Bool.and_eq_true, decide_eq_true_eq, beq_iff_eq] at hcode
  obtain ⟨⟨hlow, hhigh⟩, hmod⟩ := hcode
  simp only [Bool.or_eq_true, Bool.and_eq_true, Nat.blt_eq, Nat.beq_eq] at hapart
  simp only [Bool.and_eq_false_iff, decide_eq_false_iff_not, beq_eq_false_iff_ne]
  rcases hapart with hbelow | habove | ⟨htwo, hsteps, hodd⟩
  · omega
  · omega
  · -- the code points of both runs are two apart, and those of one lie between those of the other
    right
    rw [htwo]
    have heven : (code - run.first) % 2 = 0 := by
      rcases hsteps with htwo | hsingle
      · rwa [htwo] at hmod
      · omega
    omega

/-! ## Characters in lower case -/

/-- **`IsLowered c`** — a character is its own lower-case form, wherever it stands. -/
def IsLowered (c : Char) : Prop :=
  c ≠ 'İ' ∧ c ≠ 'Σ' ∧ lowerChar c = c

theorem lowerBetween_of_isLowered {c : Char} (h : IsLowered c) (afterCased : Bool)
    (following : List Char) : lowerBetween afterCased c following = [c] := by
  obtain ⟨hi, hs, hl⟩ := h
  unfold lowerBetween
  rw [beq_eq_false_iff_ne.mpr hi, beq_eq_false_iff_ne.mpr hs, hl]
  rfl

/-- A character of which no run speaks is its own lower-case form. -/
theorem isLowered_of_not_contains {c : Char}
    (h : ∀ run ∈ dottedCapital :: caseRuns, run.contains c.toNat = false) : IsLowered c := by
  obtain ⟨hdotted, hruns⟩ := List.forall_mem_cons.mp h
  have hsigma : ∃ run ∈ caseRuns, run.contains 'Σ'.toNat = true :=
    List.any_eq_true.mp (by decide +kernel)
  have hcapital : (⟨65, 90, 1, 32⟩ : CaseRun) ∈ caseRuns := List.mem_cons_self
  refine ⟨?_, ?_, ?_⟩
  · rintro rfl
    exact absurd hdotted (by decide)
  · rintro rfl
    obtain ⟨run, hrun, hcontains⟩ := hsigma
    rw [hruns run hrun] at hcontains
    cases hcontains
  · unfold lowerChar
    split
    · -- the first run holds the capital letters that are lowered without the table
      have hletter := hruns _ hcapital
      simp only [CaseRun.contains, Nat.mod_one, beq_self_eq_true, Bool.and_true,
        Bool.and_eq_false_iff, decide_eq_false_iff_not] at hletter
      unfold Char.toLower
      split
      · rename_i hcapitals
        simp only [ge_iff_le, UInt32.le_iff_toNat_le] at hcapitals
        have hcode : c.val.toNat = c.toNat := rfl
        have hfirst : 'A'.val.toNat = 65 := rfl
        have hlast : 'Z'.val.toNat = 90 := rfl
        omega
      · rfl
    · have hnone : caseRuns.find? (·.contains c.toNat) = none :=
        List.find?_eq_none.mpr fun run hrun => by rw [hruns run hrun]; exact Bool.false_ne_true
      rw [hnone]

theorem toNat_ofNat_cases (code : Nat) :
    (Char.ofNat code).toNat = code ∨ (Char.ofNat code).toNat = 0 := by
  by_cases hvalid : code.isValidChar
  · rw [Char.ofNat, dif_pos hvalid]
    exact Or.inl rfl
  · rw [Char.ofNat, dif_neg hvalid]
    exact Or.inr rfl

/-- The lower-case form of a character is its own. -/
theorem isLowered_lowerChar {c : Char} (hi : c ≠ 'İ') : IsLowered (lowerChar c) := by
  unfold lowerChar
  split
  · rename_i hascii
    have hall : ∀ code < 128, IsLowered (Char.ofNat code).toLower := by
      unfold IsLowered
      decide +kernel
    have hc := hall c.toNat hascii
    rwa [Char.ofNat_toNat] at hc
  · split
    · rename_i run hfind
      have hrun := List.mem_of_find?_eq_some hfind
      have hcode := List.find?_some hfind
      have halone := List.all_eq_true.mp leavesAlone_caseRuns run hrun
      have hzero : ∀ other ∈ dottedCapital :: caseRuns, other.contains 0 = false := by
        decide +kernel
      apply isLowered_of_not_contains
      intro other hother
      -- a code point that is no character stands for the character zero
      rcases toNat_ofNat_cases (Int.toNat (c.toNat + run.shift)) with heq | heq
      · rw [heq]
        exact CaseRun.not_contains_of_isApart (List.all_eq_true.mp halone other hother)
          (nonneg_caseRuns run hrun) hcode
      · rw [heq]
        exact hzero other hother
    · rename_i hfind
      apply isLowered_of_not_contains
      refine List.forall_mem_cons.mpr ⟨?_, fun run hrun => ?_⟩
      · have hne : c.toNat ≠ 304 := fun heq => hi (by rw [← Char.ofNat_toNat c, heq])
        unfold CaseRun.contains dottedCapital
        simp only [Nat.mod_one, beq_self_eq_true, Bool.and_true, Bool.and_eq_false_iff,
          decide_eq_false_iff_not]
        omega
      · exact Bool.eq_false_iff.mpr (List.find?_eq_none.mp hfind run hrun)

theorem isLowered_of_mem_lowerBetween {afterCased : Bool} {c d : Char} {following : List Char}
    (h : d ∈ lowerBetween afterCased c following) : IsLowered d := by
  obtain ⟨hi, hdot, hfinal, hsigma⟩ :
      IsLowered 'i' ∧ IsLowered '\u0307' ∧ IsLowered 'ς' ∧ IsLowered 'σ' := by
    unfold IsLowered
    decide +kernel
  unfold lowerBetween at h
  split at h
  · rcases List.mem_cons.mp h with rfl | h
    · exact hi
    · rw [List.mem_singleton.mp h]
      exact hdot
  · rename_i hc
    split at h
    · rw [List.mem_singleton.mp h]
      split
      · exact hfinal
      · exact hsigma
    · rw [List.mem_singleton.mp h]
      exact isLowered_lowerChar fun heq => hc (by rw [heq]; rfl)

/-! ## Texts in lower case -/

theorem isLowered_of_mem_lowerFrom {afterCased : Bool} {text : List Char} {d : Char}
    (h : d ∈ lowerFrom afterCased text) : IsLowered d := by
  induction text generalizing afterCased with
  | nil => cases h
  | cons c rest ih =>
      rw [lowerFrom] at h
      rcases List.mem_append.mp h with h | h
      · exact isLowered_of_mem_lowerBetween h
      · exact ih h

theorem lowerFrom_of_isLowered {text : List Char} (h : ∀ c ∈ text, IsLowered c)
    (afterCased : Bool) : lowerFrom afterCased text = text := by
  induction text generalizing afterCased with
  | nil => rfl
  | cons c rest ih =>
      obtain ⟨hc, hrest⟩ := List.forall_mem_cons.mp h
      rw [lowerFrom, lowerBetween_of_isLowered hc, ih hrest]
      rfl

/-- **Lowering a text twice is lowering it once.** -/
theorem lower_lower (text : String) : lower (lower text) = lower text := by
  have hfixed : lowerChars (lowerChars text.toList) = lowerChars text.toList :=
    lowerFrom_of_isLowered (fun _ hd => isLowered_of_mem_lowerFrom hd) false
  show String.ofList (lowerChars (lower text).toList) = lower text
  rw [lower, String.toList_ofList, hfixed]

/-- A text is its own lower-case form exactly if each of its characters is. -/
theorem lower_eq_self_iff {text : String} : lower text = text ↔ ∀ c ∈ text.toList, IsLowered c := by
  constructor
  · intro h c hc
    rw [← h, lower, String.toList_ofList] at hc
    exact isLowered_of_mem_lowerFrom hc
  · intro h
    rw [lower, lowerChars, lowerFrom_of_isLowered h, String.ofList_toList]

end SourceAtlas.Text
