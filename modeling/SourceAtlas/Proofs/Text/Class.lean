/-
# SourceAtlas.Proofs.Text.Class — what white space is not.

White space is twenty-nine code points.  Facts about all of it are facts about that list: no blank
is a word character, and no blank has a lower-case form of its own.
-/
import SourceAtlas.Text.Case
import SourceAtlas.Text.Class

namespace SourceAtlas.Text

/-- The code points of white space. -/
def blankCodes : List Nat :=
  [9, 10, 11, 12, 13, 28, 29, 30, 31, 32, 0x85, 0xA0, 0x1680, 0x2000, 0x2001, 0x2002, 0x2003, 0x2004,
    0x2005, 0x2006, 0x2007, 0x2008, 0x2009, 0x200A, 0x2028, 0x2029, 0x202F, 0x205F, 0x3000]

theorem mem_blankCodes {c : Char} (h : isBlank c = true) : c.toNat ∈ blankCodes := by
  simp only [isBlank, Bool.or_eq_true, Bool.and_eq_true, decide_eq_true_eq, beq_iff_eq] at h
  simp only [blankCodes, List.mem_cons, List.not_mem_nil, or_false]
  omega

/-- What holds of every listed code point holds of every blank. -/
theorem of_isBlank (p : Char → Prop) (hall : ∀ code ∈ blankCodes, p (Char.ofNat code)) {c : Char}
    (h : isBlank c = true) : p c := by
  have hcode := hall c.toNat (mem_blankCodes h)
  rwa [Char.ofNat_toNat] at hcode

/-- No blank is a word character. -/
theorem isWord_of_isBlank {c : Char} (h : isBlank c = true) : isWord c = false := by
  have hall : ∀ code ∈ blankCodes, isWord (Char.ofNat code) = false := by decide +kernel
  exact of_isBlank (fun c => isWord c = false) hall h

/-- A blank is its own lower-case form. -/
theorem lowerBetween_of_isBlank {c : Char} (h : isBlank c = true) (afterCased : Bool)
    (following : List Char) : lowerBetween afterCased c following = [c] := by
  have hall : ∀ code ∈ blankCodes, Char.ofNat code ≠ 'İ' ∧ Char.ofNat code ≠ 'Σ' ∧
      lowerChar (Char.ofNat code) = Char.ofNat code := by decide +kernel
  obtain ⟨hi, hs, hl⟩ := of_isBlank (fun c => c ≠ 'İ' ∧ c ≠ 'Σ' ∧ lowerChar c = c) hall h
  unfold lowerBetween
  rw [beq_eq_false_iff_ne.mpr hi, beq_eq_false_iff_ne.mpr hs, hl]
  rfl

/-! ## The end of a lower-case text -/

/-- A lower-case text ends in the lower-case form of the last character. -/
theorem exists_lowerFrom_concat (afterCased : Bool) (before : List Char) (c : Char) :
    ∃ lead after, lowerFrom afterCased (before ++ [c]) = lead ++ lowerBetween after c [] := by
  induction before generalizing afterCased with
  | nil =>
      refine ⟨[], afterCased, ?_⟩
      rw [List.nil_append, lowerFrom, lowerFrom, List.append_nil, List.nil_append]
  | cons b rest ih =>
      obtain ⟨lead, after, h⟩ := ih (if isCaseIgnorable b then afterCased else isCased b)
      refine ⟨lowerBetween afterCased b (rest ++ [c]) ++ lead, after, ?_⟩
      rw [List.cons_append, lowerFrom, h, List.append_assoc]

/-- A last character that is its own lower-case form stays the last one. -/
theorem getLast?_lowerChars {before : List Char} {c : Char}
    (h : ∀ after, lowerBetween after c [] = [c]) :
    (lowerChars (before ++ [c])).getLast? = some c := by
  obtain ⟨lead, after, heq⟩ := exists_lowerFrom_concat false before c
  unfold lowerChars
  rw [heq, h, List.getLast?_concat]

end SourceAtlas.Text
