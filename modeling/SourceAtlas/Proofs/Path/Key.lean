/-
# SourceAtlas.Proofs.Path.Key — keys of paths under one root.

Lower-casing looks at neighbouring letters, but never across a slash: a slash is no letter and is
not looked through, so the two sides of it are lowered apart (`lowerFrom_slash`).  The key of a path
under a root therefore ends in the key of the path itself, and two files under one root share a key
only if their relative paths do (`key_of_key_join`).
-/
import SourceAtlas.Proofs.Path.Normal

namespace SourceAtlas

namespace Text

/-! ## Lower case on both sides of a slash -/

theorem startsCased_slash (before after : List Char) :
    startsCased (before ++ '/' :: after) = startsCased before := by
  have hslash : isCaseIgnorable '/' = false := by decide +kernel
  have hcased : isCased '/' = false := by decide +kernel
  unfold startsCased
  induction before with
  | nil =>
      rw [List.nil_append, List.dropWhile_cons_of_neg (by rw [hslash]; simp)]
      exact hcased
  | cons c rest ih =>
      by_cases hc : isCaseIgnorable c = true
      · rw [List.cons_append, List.dropWhile_cons_of_pos hc, List.dropWhile_cons_of_pos hc]
        exact ih
      · rw [List.cons_append, List.dropWhile_cons_of_neg hc, List.dropWhile_cons_of_neg hc]

/-- **Lower-casing does not see across a slash.** -/
theorem lowerFrom_slash (afterCased : Bool) (before after : List Char) :
    lowerFrom afterCased (before ++ '/' :: after) =
      lowerFrom afterCased before ++ '/' :: lowerFrom false after := by
  induction before generalizing afterCased with
  | nil =>
      have hslash : isCaseIgnorable '/' = false := by decide +kernel
      have hcased : isCased '/' = false := by decide +kernel
      rw [List.nil_append, lowerFrom, lowerFrom, hslash, hcased]
      rfl
  | cons c rest ih =>
      rw [List.cons_append, lowerFrom, lowerFrom, ih, List.append_assoc]
      congr 1
      unfold lowerBetween
      rw [startsCased_slash]

theorem lowerChars_slash (before after : List Char) :
    lowerChars (before ++ '/' :: after) = lowerChars before ++ '/' :: lowerChars after :=
  lowerFrom_slash false before after

end Text

namespace Path

open Text

/-! ## The key of a relative path -/

theorem slashed_joined {parts : List (List Char)} (h : ∀ s ∈ parts, IsPlain s) :
    slashed (joined parts) = joined parts := by
  have hslashed := slashed_of_plain (Or.inl rfl : IsFront ['/']) h
  unfold slashed replaceChar at hslashed ⊢
  rw [List.map_append] at hslashed
  exact List.append_cancel_left hslashed

/-- A relative path of plain segments is its own normal form. -/
theorem normal_joined {parts : List (List Char)} (hne : parts ≠ []) (h : ∀ s ∈ parts, IsPlain s) :
    normal (joined parts) = joined parts := by
  have hslash : ∀ s ∈ parts, '/' ∉ s := fun s hs => (h s hs).2.2.2.1
  have hhead := head?_joined_ne_slash hslash (head?_ne_nil_of_plain h)
  have hanchor := anchor_relative hhead
  have hempty : parts.isEmpty = false := by simpa using hne
  unfold normal assemble
  rw [segments_joined hne hslash, collapse_plain h, hanchor, hempty]
  rfl

theorem keyChars_joined {parts : List (List Char)} (hne : parts ≠ [])
    (h : ∀ s ∈ parts, IsPlain s) : keyChars (joined parts) = lowerChars (joined parts) := by
  unfold keyChars
  rw [slashed_joined h, normal_joined hne h]

/-! ## Keys under one root -/

variable {front : List Char} {base : List (List Char)}

theorem keyChars_plain {parts : List (List Char)} (hfront : IsFront front)
    (h : ∀ s ∈ parts, IsPlain s) :
    keyChars (front ++ joined parts) = lowerChars (front ++ joined parts) := by
  unfold keyChars
  rw [slashed_of_plain hfront h,
    normal_front hfront (fun s hs => (h s hs).2.2.2.1) (head?_ne_nil_of_plain h), collapse_plain h]

/-- The key of a path under a root is the root's part, which is the same for all of them, and the
key of the path. -/
theorem exists_keyChars_under (hfront : IsFront front) (hbase : ∀ s ∈ base, IsPlain s) :
    ∃ lead, ∀ parts : List (List Char), parts ≠ [] → (∀ s ∈ parts, IsPlain s) →
      keyChars (front ++ joined (base ++ parts)) = lead ++ keyChars (joined parts) := by
  have hall : ∀ parts : List (List Char), (∀ s ∈ parts, IsPlain s) →
      ∀ s ∈ base ++ parts, IsPlain s := by
    intro parts h s hs
    rcases List.mem_append.mp hs with hs | hs
    · exact hbase s hs
    · exact h s hs
  by_cases hb : base = []
  · subst hb
    rcases hfront with rfl | rfl
    · refine ⟨['/'], fun parts hne h => ?_⟩
      rw [keyChars_plain (Or.inl rfl) (hall parts h), keyChars_joined hne h, List.nil_append]
      exact lowerChars_slash [] (joined parts)
    · refine ⟨['/', '/'], fun parts hne h => ?_⟩
      rw [keyChars_plain (Or.inr rfl) (hall parts h), keyChars_joined hne h, List.nil_append]
      exact lowerChars_slash ['/'] (joined parts)
  · refine ⟨lowerChars (front ++ joined base) ++ ['/'], fun parts hne h => ?_⟩
    rw [keyChars_plain hfront (hall parts h), keyChars_joined hne h, joined_append hb hne,
      ← List.append_assoc, lowerChars_slash]
    simp

/-- **Files under one root share a key only if their relative paths do.** -/
theorem key_of_key_join {root p q : String} (habs : isAbsolute root.toList = true)
    (hnormal : normal (slashed root.toList) = root.toList)
    (hp : ∀ s ∈ segments p.toList, IsPlain s) (hq : ∀ s ∈ segments q.toList, IsPlain s)
    (h : key (join root p) = key (join root q)) : key p = key q := by
  obtain ⟨front, base, hfront, hbase, hroot⟩ := exists_plain_of_normal habs hnormal
  obtain ⟨lead, hlead⟩ := exists_keyChars_under hfront hbase
  have hunder : ∀ path : String, (∀ s ∈ segments path.toList, IsPlain s) →
      keyChars (join root path).toList = lead ++ keyChars path.toList := by
    intro path hpath
    unfold join
    rw [String.toList_ofList, hroot, ← joined_segments path.toList,
      joinChars_plain hfront hbase (fun s hs => slash_not_mem_of_mem_segments hs)
        (segments_ne_nil _) (head?_ne_nil_of_plain hpath),
      hlead _ (segments_ne_nil _) hpath]
  unfold key at h ⊢
  have hchars := String.ofList_injective h
  rw [hunder p hp, hunder q hq] at hchars
  rw [List.append_cancel_left hchars]

end Path

end SourceAtlas
