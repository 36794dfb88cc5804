/-
# SourceAtlas.Proofs.Text.Ends — lowering makes no blank, no separator and no dot.

White space, the two separators of a path and the dot are no lower-case form of another character
(`eq_of_mem_lowerBetween`).  So a text that is trimmed of them is trimmed of them in lower case too
(`TrimmedBy.lowerChars`), and what is lowered after trimming need not be trimmed again.
-/
import SourceAtlas.Options
import SourceAtlas.Proofs.Text.Case
import SourceAtlas.Proofs.Text.Class
import SourceAtlas.Proofs.Text.Piece

namespace SourceAtlas.Text

/-! ## Marks -/

/-- The code points of the dot, of the separators of a path and of white space. -/
def markCodes : List Nat :=
  46 :: 47 :: 92 :: blankCodes

/-- What is trimmed from names, white space and the separators of a path, and the dot. -/
def IsMark (c : Char) : Prop :=
  c.toNat ∈ markCodes

theorem isMark_dot : IsMark '.' :=
  List.mem_cons_self

theorem isMark_slash : IsMark '/' :=
  List.mem_append_left blankCodes (by decide : 47 ∈ [46, 47, 92])

theorem isMark_backslash : IsMark '\\' :=
  List.mem_append_left blankCodes (by decide : 92 ∈ [46, 47, 92])

theorem isMark_of_isBlank {c : Char} (h : isBlank c = true) : IsMark c :=
  List.mem_append_right [46, 47, 92] (mem_blankCodes h)

theorem isMark_of_isSeparator {c : Char} (h : isSeparator c = true) : IsMark c := by
  unfold isSeparator at h
  rcases Bool.or_eq_true_iff.mp h with h | h
  · rw [eq_of_beq h]
    exact isMark_slash
  · rw [eq_of_beq h]
    exact isMark_backslash

/-- No run lowers a code point to a mark, or to the code point zero, which stands for none. -/
theorem not_contains_markCodes : ∀ run ∈ caseRuns, ∀ code ∈ 0 :: markCodes,
    ∀ before ∈ [Int.toNat (code - run.shift)], run.contains before = false := by
  decide +kernel

theorem eq_of_isMark_lowerChar {c : Char} (h : IsMark (lowerChar c)) : lowerChar c = c := by
  have hnonzero : (0 : Nat) ∉ markCodes := by decide
  unfold lowerChar at h ⊢
  split at h
  · rename_i hascii
    have hall : ∀ code < 128, (Char.ofNat code).toLower.toNat ∈ markCodes →
        (Char.ofNat code).toLower = Char.ofNat code := by decide +kernel
    have hc := hall c.toNat hascii
    rw [Char.ofNat_toNat] at hc
    rw [if_pos hascii]
    exact hc h
  · split at h
    · rename_i run hfind
      have hrun := List.mem_of_find?_eq_some hfind
      have hcontains := List.find?_some hfind
      -- a code point that is no character stands for the character zero, which is no mark
      rcases toNat_ofNat_cases (Int.toNat (c.toNat + run.shift)) with heq | heq
      · rw [IsMark, heq] at h
        have hfirst := nonneg_caseRuns run hrun
        have hlow : run.first ≤ c.toNat := by
          unfold CaseRun.contains at hcontains
          simp only [Bool.and_eq_true, decide_eq_true_eq] at hcontains
          exact hcontains.1.1
        have hnot := not_contains_markCodes run hrun _ (List.mem_cons_of_mem 0 h) c.toNat
          (List.mem_singleton.mpr (by omega))
        rw [hnot] at hcontains
        cases hcontains
      · rw [IsMark, heq] at h
        exact absurd h hnonzero
    · rename_i hascii _ hfind
      rw [if_neg hascii]

/-- A mark in the lower-case form of a character is that character. -/
theorem eq_of_mem_lowerBetween {afterCased : Bool} {c d : Char} {following : List Char}
    (hd : d ∈ lowerBetween afterCased c following) (hmark : IsMark d) : d = c := by
  have hletters : ∀ letter ∈ ['i', '\u0307', 'ς', 'σ'], letter.toNat ∉ markCodes :=
    forall_mem_of_all (by decide +kernel)
  unfold lowerBetween at hd
  split at hd
  · exact absurd hmark (hletters d (List.mem_append_left ['ς', 'σ'] hd))
  · split at hd
    · have hsigma : d ∈ ['ς', 'σ'] := by
        rw [List.mem_singleton] at hd
        rw [hd]
        split <;> simp
      exact absurd hmark (hletters d (List.mem_append_right ['i', '\u0307'] hsigma))
    · rw [List.mem_singleton] at hd
      rw [hd] at hmark ⊢
      exact eq_of_isMark_lowerChar hmark

/-- A mark in the lower-case form of a text is one of the text. -/
theorem mem_of_mem_lowerFrom {afterCased : Bool} {text : List Char} {d : Char}
    (hd : d ∈ lowerFrom afterCased text) (hmark : IsMark d) : d ∈ text := by
  induction text generalizing afterCased with
  | nil => cases hd
  | cons c rest ih =>
      rw [lowerFrom] at hd
      rcases List.mem_append.mp hd with hd | hd
      · rw [eq_of_mem_lowerBetween hd hmark]
        exact List.mem_cons_self
      · exact List.mem_cons_of_mem c (ih hd)

/-! ## The ends of a lower-case text -/

theorem lowerBetween_ne_nil (afterCased : Bool) (c : Char) (following : List Char) :
    lowerBetween afterCased c following ≠ [] := by
  unfold lowerBetween
  split
  · exact List.cons_ne_nil _ _
  · split <;> exact List.cons_ne_nil _ _

/-- **What stands behind a text is lowered by itself**, but for the letter before it; and it does
not change the length of what stands before it. -/
theorem exists_lowerFrom_append (afterCased : Bool) (text : List Char) :
    ∃ after, ∀ more, ∃ lead, lead.length = (lowerFrom afterCased text).length ∧
      lowerFrom afterCased (text ++ more) = lead ++ lowerFrom after more := by
  have hwidth : ∀ afterCased c following other,
      (lowerBetween afterCased c following).length = (lowerBetween afterCased c other).length := by
    intro afterCased c following other
    unfold lowerBetween
    split
    · rfl
    · split <;> rfl
  induction text generalizing afterCased with
  | nil => exact ⟨afterCased, fun more => ⟨[], rfl, rfl⟩⟩
  | cons c rest ih =>
      obtain ⟨after, hafter⟩ := ih (if isCaseIgnorable c then afterCased else isCased c)
      refine ⟨after, fun more => ?_⟩
      obtain ⟨lead, hlength, hlead⟩ := hafter more
      refine ⟨lowerBetween afterCased c (rest ++ more) ++ lead, ?_, ?_⟩
      · rw [lowerFrom, List.length_append, List.length_append, hlength,
          hwidth afterCased c (rest ++ more) rest]
      · rw [List.cons_append, lowerFrom, hlead, List.append_assoc]

/-- **A text trimmed of a class of marks is trimmed of it in lower case.** -/
theorem TrimmedBy.lowerChars {drop : Char → Bool} (hdrop : ∀ c, drop c = true → IsMark c)
    {text : List Char} (h : TrimmedBy drop text) : TrimmedBy drop (lowerChars text) := by
  have hlowered : ∀ afterCased c following, drop c = false →
      ∀ d ∈ lowerBetween afterCased c following, drop d = false := by
    intro afterCased c following hc d hd
    rw [← Bool.not_eq_true]
    intro hmark
    rw [eq_of_mem_lowerBetween hd (hdrop d hmark), hc] at hmark
    cases hmark
  constructor
  · intro d hd
    cases text with
    | nil => cases hd
    | cons c rest =>
        rw [Text.lowerChars, lowerFrom, List.head?_append,
          Option.or_of_isSome (List.isSome_head?.mpr (lowerBetween_ne_nil _ _ _))] at hd
        exact hlowered _ _ _ (h.1 c rfl) d (List.mem_of_mem_head? hd)
  · intro d hd
    rcases List.eq_nil_or_concat text with rfl | ⟨before, c, rfl⟩
    · cases hd
    · obtain ⟨lead, after, heq⟩ := exists_lowerFrom_concat false before c
      rw [List.concat_eq_append, Text.lowerChars, heq, List.getLast?_append,
        Option.or_of_isSome (List.getLast?_isSome.mpr (lowerBetween_ne_nil _ _ _))] at hd
      refine hlowered _ _ _ (h.2 c ?_) d (List.mem_of_mem_getLast? hd)
      rw [List.concat_eq_append, List.getLast?_concat]
      rfl

/-- A trimmed text is trimmed in lower case. -/
theorem Tight.lowerChars {text : List Char} (h : Tight text) : Tight (lowerChars text) :=
  TrimmedBy.lowerChars (fun _ => isMark_of_isBlank) h

/-! ## Dots -/

/-- If nothing but dots is in the lower-case form of a text, nothing else is in the text. -/
theorem eq_dot_of_lowerFrom {afterCased : Bool} {text : List Char}
    (h : ∀ d ∈ lowerFrom afterCased text, d = '.') : ∀ c ∈ text, c = '.' := by
  induction text generalizing afterCased with
  | nil => exact List.forall_mem_nil _
  | cons c rest ih =>
      rw [lowerFrom] at h
      obtain ⟨hfirst, hrest⟩ := List.forall_mem_append.mp h
      obtain ⟨d, hd⟩ := List.exists_mem_of_ne_nil _ (lowerBetween_ne_nil afterCased c rest)
      have hmark : IsMark d := hfirst d hd ▸ isMark_dot
      refine List.forall_mem_cons.mpr ⟨?_, ih hrest⟩
      rw [← eq_of_mem_lowerBetween hd hmark, hfirst d hd]

/-- **A text of dots is the lower-case form of itself alone.** -/
theorem lowerChars_eq_iff_of_dots {dots text : List Char} (hdots : ∀ c ∈ dots, c = '.') :
    lowerChars text = dots ↔ text = dots := by
  have hself : ∀ {t : List Char}, (∀ c ∈ t, c = '.') → lowerChars t = t := by
    intro t ht
    have hdot : IsLowered '.' := by
      unfold IsLowered
      decide +kernel
    exact lowerFrom_of_isLowered (fun c hc => ht c hc ▸ hdot) false
  constructor
  · intro h
    rw [← h]
    exact (hself (eq_dot_of_lowerFrom fun d hd => hdots d (h ▸ hd))).symm
  · rintro rfl
    exact hself hdots

end SourceAtlas.Text
