/-
# SourceAtlas.Proofs.Render.Identifier — identifiers are words, and no two are the same.

The plain identifier of a value is a word of ASCII letters, digits and low lines with a letter in
front, and so are its further spellings.  The spellings of one identifier differ from each other, so
among one more spelling than there are names taken some is free, and the search finds the first such
(`identifierFor_firstFree`).  Identifiers for several values are then distinct from each other and
from all that were taken before, whatever the values (`nodup_identifiersFor`).
-/
import Mathlib.Data.List.Nodup
import Mathlib.Data.List.Perm.Subperm
import SourceAtlas.Render.Mermaid

namespace SourceAtlas.Render

/-- A character that an identifier may hold behind its first. -/
def isIdentifierChar (c : Char) : Bool :=
  c.isAlphanum || c == '_'

/-- **`IsIdentifier id`** — a word of ASCII letters, digits and low lines with a letter in front. -/
def IsIdentifier (id : String) : Prop :=
  ∃ first rest, id.toList = first :: rest ∧ first.isAlpha = true ∧
    ∀ c ∈ rest, isIdentifierChar c = true

variable {plain value : String} {taken values : List String}

/-! ## Words -/

theorem isIdentifierChar_of_isAlpha {c : Char} (h : c.isAlpha = true) :
    isIdentifierChar c = true := by
  unfold isIdentifierChar Char.isAlphanum
  rw [h]
  rfl

theorem isIdentifierChar_of_isDigit {c : Char} (h : c.isDigit = true) :
    isIdentifierChar c = true := by
  unfold isIdentifierChar Char.isAlphanum
  rw [h, Bool.or_true]
  rfl

/-- Every character of an identifier is one that it may hold. -/
theorem IsIdentifier.all (h : IsIdentifier value) : ∀ c ∈ value.toList, isIdentifierChar c = true := by
  obtain ⟨first, rest, hlist, hfirst, hrest⟩ := h
  rw [hlist]
  intro c hc
  rcases List.mem_cons.mp hc with rfl | hc
  · exact isIdentifierChar_of_isAlpha hfirst
  · exact hrest c hc

/-- What is left of a value's characters may stand in an identifier. -/
theorem isIdentifierChar_of_identifierChar? {c d : Char} (h : identifierChar? c = some d) :
    isIdentifierChar d = true := by
  unfold identifierChar? at h
  split at h
  · cases h
    rfl
  · split at h
    · rename_i hkeeps
      cases h
      exact hkeeps
    · cases h

theorem isIdentifier_plainIdentifier (value : String) : IsIdentifier (plainIdentifier value) := by
  have hall : ∀ d ∈ value.toList.filterMap identifierChar?, isIdentifierChar d = true := by
    intro d hd
    obtain ⟨c, -, hc⟩ := List.mem_filterMap.mp hd
    exact isIdentifierChar_of_identifierChar? hc
  unfold plainIdentifier
  split
  · exact ⟨'u', ['n', 'k', 'n', 'o', 'w', 'n'], rfl, rfl, List.all_eq_true.mp (by decide)⟩
  · rename_i first rest hchars
    rw [hchars] at hall
    split
    · rename_i hfirst
      exact ⟨first, rest, String.toList_ofList, hfirst,
        fun c hc => hall c (List.mem_cons_of_mem first hc)⟩
    · refine ⟨'n', '_' :: first :: rest, ?_, rfl, ?_⟩
      · simp
      · intro c hc
        rcases List.mem_cons.mp hc with rfl | hc
        · rfl
        · exact hall c hc

theorem isIdentifier_spelling (h : IsIdentifier plain) (number : Nat) :
    IsIdentifier (spelling plain number) := by
  unfold spelling
  split
  · exact h
  · obtain ⟨first, rest, hlist, hfirst, hrest⟩ := h
    refine ⟨first, rest ++ '_' :: Nat.toDigits 10 number, ?_, hfirst, ?_⟩
    · simp [hlist]
    · intro c hc
      rcases List.mem_append.mp hc with hc | hc
      · exact hrest c hc
      · rcases List.mem_cons.mp hc with rfl | hc
        · rfl
        · exact isIdentifierChar_of_isDigit
            (Nat.isDigit_of_mem_toDigits (by decide) (by decide) hc)

/-! ## The search for a free spelling -/

/-- The spellings from the first on differ from each other. -/
theorem spelling_injective {number number' : Nat} (hnumber : 1 ≤ number) (hnumber' : 1 ≤ number')
    (h : spelling plain number = spelling plain number') : number = number' := by
  -- a spelling with a number behind it is longer than the plain one
  have hlonger : ∀ n : Nat, plain ++ "_" ++ toString n ≠ plain := by
    intro n heq
    have hlength := congrArg String.length heq
    rw [String.length_append, String.length_append] at hlength
    have hone : "_".length = 1 := rfl
    omega
  unfold spelling at h
  split at h
  · split at h
    · omega
    · exact absurd h.symm (hlonger number')
  · split at h
    · exact absurd h (hlonger number)
    · -- the digits of a number tell the number
      have hdigits : Nat.toDigits 10 number = Nat.toDigits 10 number' := by
        have hlist := congrArg String.toList h
        simpa using hlist
      rw [← @Nat.ofDigitChars_ten_toDigits number, hdigits, Nat.ofDigitChars_ten_toDigits]

/-- The search stops at the first free spelling, or after as many as it may try. -/
theorem exists_freeSpelling (plain : String) (taken : List String) (tries number : Nat) :
    ∃ stop, number ≤ stop ∧ freeSpelling plain taken tries number = spelling plain stop ∧
      (∀ earlier, number ≤ earlier → earlier < stop → spelling plain earlier ∈ taken) ∧
      (spelling plain stop ∉ taken ∨ stop = number + tries) := by
  induction tries generalizing number with
  | zero =>
      exact ⟨number, Nat.le_refl _, rfl, fun earlier hle hlt => absurd hle (Nat.not_le.mpr hlt),
        Or.inr rfl⟩
  | succ tries ih =>
      unfold freeSpelling
      split
      · rename_i htaken
        obtain ⟨stop, hle, heq, hearlier, hstop⟩ := ih (number + 1)
        refine ⟨stop, by omega, heq, ?_, hstop.imp_right (by omega)⟩
        intro earlier hearlier' hlt
        rcases Nat.eq_or_lt_of_le hearlier' with rfl | hgt
        · exact List.contains_iff_mem.mp htaken
        · exact hearlier earlier hgt hlt
      · rename_i hfree
        exact ⟨number, Nat.le_refl _, rfl, fun earlier hle hlt => absurd hle (Nat.not_le.mpr hlt),
          Or.inl fun hmem => hfree (List.contains_iff_mem.mpr hmem)⟩

/-- **`FirstFree taken value id`** — the search for an identifier of a value ends with this one, the
first spelling that is not taken. -/
def FirstFree (taken : List String) (value id : String) : Prop :=
  ∃ number, 1 ≤ number ∧ id = spelling (plainIdentifier value) number ∧ id ∉ taken ∧
    ∀ earlier, 1 ≤ earlier → earlier < number →
      spelling (plainIdentifier value) earlier ∈ taken

/-- **The search for a free identifier ends with the first**, for every value and whatever is
taken. -/
theorem identifierFor_firstFree (taken : List String) (value : String) :
    FirstFree taken value (identifierFor taken value) := by
  obtain ⟨stop, hle, heq, hearlier, hstop⟩ :=
    exists_freeSpelling (plainIdentifier value) taken taken.length 1
  refine ⟨stop, hle, heq, ?_, hearlier⟩
  show freeSpelling _ _ _ _ ∉ taken
  rw [heq]
  rcases hstop with hfree | rfl
  · exact hfree
  · -- the spellings tried before fill all that is taken, and this one is none of them
    intro hmem
    have hnodup : ((List.range' 1 (taken.length + 1)).map
        (spelling (plainIdentifier value))).Nodup := by
      refine (List.nodup_map_iff_inj_on List.nodup_range').mpr ?_
      intro number hnumber number' hnumber'
      exact spelling_injective (List.mem_range'_1.mp hnumber).1 (List.mem_range'_1.mp hnumber').1
    have hsubset : (List.range' 1 (taken.length + 1)).map (spelling (plainIdentifier value)) ⊆
        taken := by
      intro name hname
      obtain ⟨number, hnumber, rfl⟩ := List.mem_map.mp hname
      obtain ⟨hone, hlt⟩ := List.mem_range'_1.mp hnumber
      rcases Nat.eq_or_lt_of_le (Nat.le_of_lt_succ hlt) with rfl | hlt
      · exact hmem
      · exact hearlier number hone hlt
    have hlength := (List.subperm_of_subset hnodup hsubset).length_le
    rw [List.length_map, List.length_range'] at hlength
    omega

theorem FirstFree.isIdentifier {id : String} (h : FirstFree taken value id) : IsIdentifier id := by
  obtain ⟨number, -, rfl, -, -⟩ := h
  exact isIdentifier_spelling (isIdentifier_plainIdentifier value) number

/-! ## Identifiers for several values -/

theorem length_identifiersFor (values : List String) (taken : List String) :
    (identifiersFor taken values).1.length = values.length := by
  induction values generalizing taken with
  | nil => rfl
  | cons value rest ih =>
      show (identifiersFor (identifierFor taken value :: taken) rest).1.length + 1 = rest.length + 1
      rw [ih]

/-- What is taken afterwards is what was taken and the new identifiers. -/
theorem mem_taken_identifiersFor {id : String} (values : List String) (taken : List String) :
    id ∈ (identifiersFor taken values).2 ↔ id ∈ (identifiersFor taken values).1 ∨ id ∈ taken := by
  induction values generalizing taken with
  | nil => simp [identifiersFor]
  | cons value rest ih =>
      show id ∈ (identifiersFor (identifierFor taken value :: taken) rest).2 ↔
        id ∈ identifierFor taken value :: _ ∨ _
      rw [ih, List.mem_cons, List.mem_cons]
      exact or_left_comm.trans or_assoc.symm

/-- **Identifiers are distinct from each other and from what was taken.** -/
theorem nodup_identifiersFor (values : List String) (taken : List String) :
    (identifiersFor taken values).1.Nodup ∧ ∀ id ∈ (identifiersFor taken values).1, id ∉ taken := by
  induction values generalizing taken with
  | nil => exact ⟨List.nodup_nil, fun id hid => (List.not_mem_nil hid).elim⟩
  | cons value rest ih =>
      obtain ⟨-, -, -, hfree, -⟩ := identifierFor_firstFree taken value
      obtain ⟨hnodup, hnew⟩ := ih (identifierFor taken value :: taken)
      constructor
      · exact List.nodup_cons.mpr ⟨fun hmem => hnew _ hmem List.mem_cons_self, hnodup⟩
      · intro id hid
        rcases List.mem_cons.mp hid with rfl | hid
        · exact hfree
        · exact fun hmem => hnew id hid (List.mem_cons_of_mem _ hmem)

theorem isIdentifier_of_mem_identifiersFor {id : String} (values : List String)
    (taken : List String) (h : id ∈ (identifiersFor taken values).1) : IsIdentifier id := by
  induction values generalizing taken with
  | nil => cases h
  | cons value rest ih =>
      rcases List.mem_cons.mp h with rfl | h
      · exact (identifierFor_firstFree taken value).isIdentifier
      · exact ih _ h

end SourceAtlas.Render
