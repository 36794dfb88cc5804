/-
# SourceAtlas.Proofs.Path.Canonical — the key of a path is a canonical form.

Lower-casing goes segment by segment and makes neither a slash nor a dot, so it does not matter
whether a path is lowered before it is brought into normal form or after (`normal_lowerChars`).
From this the key of a path is its own key (`key_key`), and every respelling of a path keeps it
(`key_of_respelled`): other separators, other letter case, `.` segments and detours such as `x/..`.

Under one root the key tells paths of plain segments apart as far as their lower-case forms do
(`key_under_eq_iff`), and a file is lost from an index only to one that has its lower-case form
(`exists_find?_ofFiles`).  All is said together in `key_canonical`.
-/
import Mathlib.Logic.Relation
import SourceAtlas.Proofs.ImportGraph.Links
import SourceAtlas.Proofs.Path.Settled
import SourceAtlas.Proofs.Text.Ends

namespace SourceAtlas

namespace Text

/-! ## Letter case of ASCII letters -/

/-- A character that is another in lower case among the ASCII letters is a capital of these. -/
theorem toLower_eq_or (c : Char) : c.toLower = c ∨ ∃ place < 26, c = Char.ofNat (65 + place) := by
  unfold Char.toLower
  split
  · rename_i hcapital
    simp only [ge_iff_le, UInt32.le_iff_toNat_le] at hcapital
    have hcode : c.val.toNat = c.toNat := rfl
    have hfirst : 'A'.val.toNat = 65 := rfl
    have hlast : 'Z'.val.toNat = 90 := rfl
    refine Or.inr ⟨c.toNat - 65, by omega, ?_⟩
    rw [Nat.add_sub_cancel' (by omega), Char.ofNat_toNat]
  · exact Or.inl rfl

/-- What lower-casing asks of a character is the same of an ASCII letter in either case. -/
theorem toLower_alike (c : Char) :
    isCaseIgnorable c.toLower = isCaseIgnorable c ∧ isCased c.toLower = isCased c ∧
      (c.toLower == 'İ') = (c == 'İ') ∧ (c.toLower == 'Σ') = (c == 'Σ') ∧
      lowerChar c.toLower = lowerChar c := by
  have hall : ∀ place < 26, let capital := Char.ofNat (65 + place)
      isCaseIgnorable capital.toLower = isCaseIgnorable capital ∧
      isCased capital.toLower = isCased capital ∧ (capital.toLower == 'İ') = (capital == 'İ') ∧
      (capital.toLower == 'Σ') = (capital == 'Σ') ∧
      lowerChar capital.toLower = lowerChar capital := by
    decide +kernel
  rcases toLower_eq_or c with hself | ⟨place, hplace, rfl⟩
  · rw [hself]
    exact ⟨rfl, rfl, rfl, rfl, rfl⟩
  · exact hall place hplace

theorem startsCased_map_toLower (text : List Char) :
    startsCased (text.map Char.toLower) = startsCased text := by
  unfold startsCased
  induction text with
  | nil => rfl
  | cons c rest ih =>
      obtain ⟨hignorable, hcased, -⟩ := toLower_alike c
      rw [List.map_cons]
      by_cases hc : isCaseIgnorable c = true
      · rw [List.dropWhile_cons_of_pos hc, List.dropWhile_cons_of_pos (hignorable.trans hc)]
        exact ih
      · rw [List.dropWhile_cons_of_neg hc, List.dropWhile_cons_of_neg (by rwa [hignorable])]
        exact hcased

theorem lowerFrom_map_toLower (afterCased : Bool) (text : List Char) :
    lowerFrom afterCased (text.map Char.toLower) = lowerFrom afterCased text := by
  induction text generalizing afterCased with
  | nil => rfl
  | cons c rest ih =>
      obtain ⟨hignorable, hcased, hi, hs, hl⟩ := toLower_alike c
      rw [List.map_cons, lowerFrom, lowerFrom, ih, hignorable, hcased]
      congr 1
      unfold lowerBetween
      rw [hi, hs, hl, startsCased_map_toLower]

/-- **Texts that differ in the case of ASCII letters have one lower-case form.** -/
theorem lowerChars_of_map_toLower {text other : List Char}
    (h : text.map Char.toLower = other.map Char.toLower) : lowerChars text = lowerChars other := by
  unfold lowerChars
  rw [← lowerFrom_map_toLower, h, lowerFrom_map_toLower]

end Text

namespace Path

open Text

variable {absolute : Bool} {parts : List (List Char)} {front : List Char}

/-! ## Lower case of segments -/

theorem joined_cons {segment : List Char} {rest : List (List Char)} (hne : rest ≠ []) :
    joined (segment :: rest) = segment ++ '/' :: joined rest := by
  have hone : joined [segment] = segment := List.intercalate_singleton
  rw [← List.singleton_append, joined_append (by simp) hne, hone]

theorem lowerChars_joined (parts : List (List Char)) :
    lowerChars (joined parts) = joined (parts.map lowerChars) := by
  induction parts with
  | nil => rfl
  | cons segment rest ih =>
      by_cases hne : rest = []
      · subst hne
        simp [joined]
      · rw [joined_cons hne, lowerChars_slash, ih, List.map_cons, joined_cons (by simpa using hne)]

theorem slash_not_mem_lowerChars {segment : List Char} (h : '/' ∉ segment) :
    '/' ∉ lowerChars segment :=
  fun hmem => h (mem_of_mem_lowerFrom hmem isMark_slash)

/-- The segments of a path are lowered one by one. -/
theorem segments_lowerChars (path : List Char) :
    segments (lowerChars path) = (segments path).map lowerChars := by
  have hslash : ∀ s ∈ (segments path).map lowerChars, '/' ∉ s := by
    intro s hs
    obtain ⟨segment, hsegment, rfl⟩ := List.mem_map.mp hs
    exact slash_not_mem_lowerChars (slash_not_mem_of_mem_segments hsegment)
  have hne : (segments path).map lowerChars ≠ [] := by simpa using segments_ne_nil path
  conv_lhs => rw [← joined_segments path, lowerChars_joined]
  exact segments_joined hne hslash

/-- The stack machine of the normal form does not look at letter case. -/
theorem pushSegment_map_lowerChars (absolute : Bool) (stack : List (List Char))
    (segment : List Char) :
    pushSegment absolute (stack.map lowerChars) (lowerChars segment) =
      (pushSegment absolute stack segment).map lowerChars := by
  have hempty : ∀ s : List Char, lowerChars s = [] ↔ s = [] := fun s =>
    lowerChars_eq_iff_of_dots (List.forall_mem_nil _)
  have hdot : ∀ s : List Char, lowerChars s = dot ↔ s = dot := fun s =>
    lowerChars_eq_iff_of_dots (by simp [dot])
  have hdotDot : ∀ s : List Char, lowerChars s = dotDot ↔ s = dotDot := fun s =>
    lowerChars_eq_iff_of_dots (by simp [dotDot])
  have hself : lowerChars dotDot = dotDot := (hdotDot dotDot).mpr rfl
  unfold pushSegment
  simp only [Bool.or_eq_true, List.isEmpty_iff, beq_iff_eq, hempty, hdot, hdotDot]
  split
  · rfl
  · split
    · cases stack with
      | nil =>
          cases absolute with
          | true => rfl
          | false => simp [hself]
      | cons top below =>
          simp only [List.map_cons, hdotDot]
          split
          · simp [hself]
          · rfl
    · rfl

theorem collapse_map_lowerChars (absolute : Bool) (parts : List (List Char)) :
    collapse absolute (parts.map lowerChars) = (collapse absolute parts).map lowerChars := by
  induction parts using List.reverseRecOn with
  | nil => rfl
  | append_singleton parts segment ih =>
      rw [List.map_append, List.map_singleton, collapse_concat, ih, ← List.map_reverse,
        pushSegment_map_lowerChars, collapse_concat, List.map_reverse]

theorem head?_lowerChars_ne_slash {path : List Char} (h : path.head? ≠ some '/') :
    (lowerChars path).head? ≠ some '/' := by
  cases path with
  | nil => simp [lowerChars, lowerFrom]
  | cons c rest =>
      intro hhead
      rw [lowerChars, lowerFrom, List.head?_append,
        Option.or_of_isSome (List.isSome_head?.mpr (lowerBetween_ne_nil _ _ _))] at hhead
      exact h (by rw [eq_of_mem_lowerBetween (List.mem_of_head? hhead) isMark_slash]; rfl)

/-- What is done to a path character by character keeps the slashes in front, if it keeps slashes
and makes none of what stands behind them. -/
theorem anchor_congr {f : List Char → List Char} {path : List Char}
    (hslash : ∀ rest, f ('/' :: rest) = '/' :: f rest)
    (hhead : ∀ n rest, path = List.replicate n '/' ++ rest → rest.head? ≠ some '/' →
      (f rest).head? ≠ some '/') : anchor (f path) = anchor path := by
  by_cases hfirst : path.head? = some '/'
  · obtain ⟨rest, rfl⟩ := List.head?_eq_some_iff.mp hfirst
    by_cases hsecond : rest.head? = some '/'
    · obtain ⟨rest, rfl⟩ := List.head?_eq_some_iff.mp hsecond
      by_cases hthird : rest.head? = some '/'
      · obtain ⟨rest, rfl⟩ := List.head?_eq_some_iff.mp hthird
        rw [hslash, hslash, hslash]
        rfl
      · have htwo : IsFront ['/', '/'] := Or.inr rfl
        rw [hslash, hslash]
        exact (anchor_front htwo (hhead 2 rest rfl hthird)).trans (anchor_front htwo hthird).symm
    · have hone : IsFront ['/'] := Or.inl rfl
      rw [hslash]
      exact (anchor_front hone (hhead 1 rest rfl hsecond)).trans (anchor_front hone hsecond).symm
  · rw [anchor_relative hfirst, anchor_relative (hhead 0 path rfl hfirst)]

theorem anchor_lowerChars (path : List Char) : anchor (lowerChars path) = anchor path :=
  anchor_congr (lowerChars_slash []) fun _ _ _ => head?_lowerChars_ne_slash

theorem lowerChars_assemble (hfront : IsLead front) (parts : List (List Char)) :
    lowerChars (assemble front parts) = assemble front (parts.map lowerChars) := by
  have hslash : ∀ rest, lowerChars ('/' :: rest) = '/' :: lowerChars rest := lowerChars_slash []
  rcases hfront with rfl | rfl | rfl
  · by_cases hparts : parts = []
    · subst hparts
      show lowerChars dot = dot
      exact (lowerChars_eq_iff_of_dots (by simp [dot])).mpr rfl
    · rw [assemble_of_ne_nil hparts, assemble_of_ne_nil (by simpa using hparts)]
      exact lowerChars_joined parts
  · show lowerChars ('/' :: joined parts) = '/' :: joined (parts.map lowerChars)
    rw [hslash, lowerChars_joined]
  · show lowerChars ('/' :: '/' :: joined parts) = '/' :: '/' :: joined (parts.map lowerChars)
    rw [hslash, hslash, lowerChars_joined]

/-- **A path may be lowered before it is brought into normal form or after.** -/
theorem normal_lowerChars (path : List Char) :
    normal (lowerChars path) = lowerChars (normal path) := by
  rw [normal_eq, normal_eq, lowerChars_assemble (isLead_anchor path), anchor_lowerChars,
    segments_lowerChars, collapse_map_lowerChars]

/-! ## The key of a key -/

theorem mem_joined {c : Char} (h : c ∈ joined parts) : c = '/' ∨ ∃ s ∈ parts, c ∈ s := by
  induction parts with
  | nil => cases h
  | cons segment rest ih =>
      by_cases hne : rest = []
      · subst hne
        exact Or.inr ⟨segment, List.mem_cons_self, by simpa [joined] using h⟩
      · rw [joined_cons hne] at h
        rcases List.mem_append.mp h with h | h
        · exact Or.inr ⟨segment, List.mem_cons_self, h⟩
        · rcases List.mem_cons.mp h with h | h
          · exact Or.inl h
          · rcases ih h with h | ⟨s, hs, hc⟩
            · exact Or.inl h
            · exact Or.inr ⟨s, List.mem_cons_of_mem segment hs, hc⟩

/-- The normal form of a path is made of characters of the path, and slashes and dots. -/
theorem mem_of_mem_normal {path : List Char} {c : Char} (h : c ∈ normal path) :
    c ∈ path ∨ c = '/' ∨ c = '.' := by
  rw [normal_eq] at h
  unfold assemble at h
  split at h
  · exact Or.inr (Or.inr (List.mem_singleton.mp h))
  · rcases List.mem_append.mp h with h | h
    · rcases isLead_anchor path with hfront | hfront | hfront
      · rw [hfront] at h
        cases h
      · rw [hfront] at h
        simp at h
        exact Or.inr (Or.inl h)
      · rw [hfront] at h
        simp at h
        exact Or.inr (Or.inl h)
    · rcases mem_joined h with h | ⟨segment, hsegment, hc⟩
      · exact Or.inr (Or.inl h)
      · exact Or.inl (mem_of_mem_segments (mem_of_mem_collapse hsegment).1 hc)

/-- The normal form makes no backslash. -/
theorem backslash_not_mem_normal {path : List Char} (h : '\\' ∉ path) : '\\' ∉ normal path := by
  intro hmem
  rcases mem_of_mem_normal hmem with hmem | hmem | hmem
  · exact h hmem
  · exact absurd hmem (by decide)
  · exact absurd hmem (by decide)

theorem keyChars_eq (path : List Char) : keyChars path = normal (lowerChars (slashed path)) :=
  (normal_lowerChars (slashed path)).symm

theorem keyChars_keyChars (path : List Char) : keyChars (keyChars path) = keyChars path := by
  have hslashed : slashed (keyChars path) = keyChars path := by
    have hback := backslash_not_mem_normal (backslash_not_mem_slashed path)
    exact replaceChar_of_not_mem fun hmem => hback (mem_of_mem_lowerFrom hmem isMark_backslash)
  have hlowered : lowerChars (keyChars path) = keyChars path :=
    lowerFrom_of_isLowered (fun _ hc => isLowered_of_mem_lowerFrom hc) false
  rw [keyChars_eq (keyChars path), hslashed, hlowered, keyChars_eq path, normal_normal]

/-- **The key of a path is its own key.** -/
theorem key_key (path : String) : key (key path) = key path := by
  unfold key
  rw [String.toList_ofList, keyChars_keyChars]

/-! ## Respellings -/

/-- **`Respelled path other`** — the paths differ in a manner that leaves the place alone:
separators are exchanged, ASCII letters are written in the other case, or somewhere behind a segment
that is not empty there stands one `.` more, or a plain segment and `..` more. -/
inductive Respelled : List Char → List Char → Prop
  | separators {path other : List Char}
      (h : List.Forall₂
        (fun c d => c = d ∨ isSeparator c = true ∧ isSeparator d = true) path other) :
      Respelled path other
  | letters {path other : List Char} (h : path.map Char.toLower = other.map Char.toLower) :
      Respelled path other
  | stay {before after : List Char} {c d : Char} (hbefore : ∃ x ∈ before, isSeparator x = false)
      (hc : isSeparator c = true) (hd : isSeparator d = true) :
      Respelled (before ++ c :: after) (before ++ c :: '.' :: d :: after)
  | detour {before segment after : List Char} {c d e : Char}
      (hbefore : ∃ x ∈ before, isSeparator x = false) (hsegment : IsPlain segment)
      (hc : isSeparator c = true) (hd : isSeparator d = true) (he : isSeparator e = true) :
      Respelled (before ++ c :: after) (before ++ c :: (segment ++ d :: '.' :: '.' :: e :: after))

/-- Segments behind one that is not empty do not change the slashes in front of a path. -/
theorem normal_append_slash {before : List Char} (hbefore : ∃ c ∈ before, c ≠ '/')
    (after : List Char) :
    normal (before ++ '/' :: after) = assemble (anchor before)
      (collapse (!(anchor before).isEmpty) (segments before ++ segments after)) := by
  obtain ⟨c, hc, hslash⟩ := hbefore
  have hsegments : segments (before ++ '/' :: after) = segments before ++ segments after :=
    pieces_append rfl before after
  rw [normal_eq, anchor_append hc hslash, hsegments]

theorem segments_append_slash {segment : List Char} (h : '/' ∉ segment) (after : List Char) :
    segments (segment ++ '/' :: after) = segment :: segments after := by
  refine pieces_append_cut (fun c hc => beq_eq_false_iff_ne.mpr ?_) rfl after
  rintro rfl
  exact h hc

/-- A plain segment and a `..` behind it come to nothing. -/
theorem collapse_detour {base target : List (List Char)} {segment : List Char}
    (h : IsPlain segment) :
    collapse absolute (base ++ segment :: dotDot :: target) =
      collapse absolute (base ++ target) := by
  unfold collapse
  rw [List.foldl_append, List.foldl_append, List.foldl_cons, List.foldl_cons,
    pushSegment_kept h.isKept, pushSegment_dotDot h]

theorem slashed_cons {c : Char} (h : isSeparator c = true) (rest : List Char) :
    slashed (c :: rest) = '/' :: slashed rest := by
  unfold isSeparator at h
  rcases Bool.or_eq_true_iff.mp h with h | h
  · rw [eq_of_beq h]
    rfl
  · rw [eq_of_beq h]
    rfl

/-- Separators that are exchanged become the same slashes. -/
theorem slashed_eq_of_forall₂ {path other : List Char}
    (h : List.Forall₂
      (fun c d => c = d ∨ isSeparator c = true ∧ isSeparator d = true) path other) :
    slashed path = slashed other := by
  induction h with
  | nil => rfl
  | cons hfirst _ ih =>
      rcases hfirst with rfl | ⟨hc, hd⟩
      · exact congrArg (List.cons _) ih
      · rw [slashed_cons hc, slashed_cons hd, ih]

theorem map_toLower_slashed (path : List Char) :
    (slashed path).map Char.toLower = slashed (path.map Char.toLower) := by
  have hall : ∀ place < 26, let capital := Char.ofNat (65 + place)
      (if capital == '\\' then '/' else capital).toLower =
        if capital.toLower == '\\' then '/' else capital.toLower := by
    decide
  unfold slashed replaceChar
  rw [List.map_map, List.map_map]
  refine List.map_congr_left fun c _ => ?_
  rw [Function.comp_apply, Function.comp_apply]
  rcases toLower_eq_or c with hself | ⟨place, hplace, rfl⟩
  · rw [hself]
    split
    · rfl
    · exact hself
  · exact hall place hplace

theorem exists_mem_slashed {before : List Char} (h : ∃ x ∈ before, isSeparator x = false) :
    ∃ c ∈ slashed before, c ≠ '/' := by
  obtain ⟨x, hx, hother⟩ := h
  obtain ⟨hslash, hback⟩ : x ≠ '/' ∧ x ≠ '\\' := by simpa [isSeparator] using hother
  refine ⟨x, List.mem_map.mpr ⟨x, hx, ?_⟩, hslash⟩
  rw [if_neg (by simpa using hback)]

/-- **One respelling keeps the key.** -/
theorem Respelled.keyChars_eq {path other : List Char} (h : Respelled path other) :
    keyChars path = keyChars other := by
  cases h with
  | separators h =>
      unfold keyChars
      rw [slashed_eq_of_forall₂ h]
  | letters h =>
      have hslashed : (slashed path).map Char.toLower = (slashed other).map Char.toLower := by
        rw [map_toLower_slashed, map_toLower_slashed, h]
      rw [Path.keyChars_eq, Path.keyChars_eq, lowerChars_of_map_toLower hslashed]
  | stay hbefore hc hd =>
      have hfront := exists_mem_slashed hbefore
      have hdot : ∀ rest, slashed ('.' :: rest) = dot ++ slashed rest := fun _ => rfl
      have hslash : '/' ∉ dot := by decide
      unfold keyChars
      rw [slashed_append, slashed_append, slashed_cons hc, slashed_cons hc, hdot, slashed_cons hd,
        normal_append_slash hfront, normal_append_slash hfront, segments_append_slash hslash,
        collapse_dot]
  | @detour before segment after c d e hbefore hsegment hc hd he =>
      have hfront := exists_mem_slashed hbefore
      have hself : slashed segment = segment := replaceChar_of_not_mem hsegment.2.2.2.2
      have hdots : ∀ rest, slashed ('.' :: '.' :: rest) = dotDot ++ slashed rest := fun _ => rfl
      have hslash : '/' ∉ dotDot := by decide
      unfold keyChars
      rw [slashed_append, slashed_append, slashed_cons hc, slashed_cons hc, slashed_append,
        slashed_cons hd, hdots, slashed_cons he, hself, normal_append_slash hfront,
        normal_append_slash hfront,
        segments_append_slash hsegment.2.2.2.1, segments_append_slash hslash,
        collapse_detour hsegment]

/-- **Respellings keep the key**, however many there are and in either direction. -/
theorem key_of_respelled {path other : String}
    (h : Relation.EqvGen Respelled path.toList other.toList) : key path = key other := by
  have hkeys : ∀ {first last : List Char}, Relation.EqvGen Respelled first last →
      keyChars first = keyChars last := by
    intro first last h
    induction h with
    | rel first last h => exact h.keyChars_eq
    | refl first => rfl
    | symm first last _ ih => exact ih.symm
    | trans first between last _ _ ih ih' => exact ih.trans ih'
  unfold key
  rw [hkeys h]

/-! ## Paths under one root -/

/-- What begins with no slash does not change the slashes in front. -/
theorem anchor_append_head {rest : List Char} (hrest : rest.head? ≠ some '/') (text : List Char) :
    anchor (text ++ rest) = anchor text := by
  by_cases htext : ∃ c ∈ text, c ≠ '/'
  · obtain ⟨c, hc, hslash⟩ := htext
    exact anchor_append hc hslash rest
  · have hall : ∀ c ∈ text, c = '/' := by simpa using htext
    match text with
    | [] => exact anchor_relative hrest
    | [a] =>
        rw [hall a (by simp)]
        exact anchor_front (Or.inl rfl) hrest
    | [a, b] =>
        rw [hall a (by simp), hall b (by simp)]
        exact anchor_front (Or.inr rfl) hrest
    | a :: b :: c :: more =>
        rw [hall a (by simp), hall b (by simp), hall c (by simp)]
        rfl

/-- What is put together of a front and of segments begins alike, whatever segments are put behind:
with nothing or with a text that ends in a slash. -/
theorem exists_assemble_append (hfront : IsLead front) (xs : List (List Char)) :
    ∃ lead, (lead = [] ∨ ∃ before, lead = before ++ ['/']) ∧ ∀ ys ≠ [],
      assemble front (xs ++ ys) = lead ++ joined ys := by
  by_cases hxs : xs = []
  · subst hxs
    refine ⟨front, ?_, fun ys hys => assemble_of_ne_nil hys⟩
    rcases hfront with rfl | rfl | rfl
    · exact Or.inl rfl
    · exact Or.inr ⟨[], rfl⟩
    · exact Or.inr ⟨['/'], rfl⟩
  · refine ⟨front ++ joined xs ++ ['/'], Or.inr ⟨_, rfl⟩, fun ys hys => ?_⟩
    rw [assemble_of_ne_nil (by simp [hys]), joined_append hxs hys]
    simp

theorem lowerChars_lead {lead : List Char} (h : lead = [] ∨ ∃ before, lead = before ++ ['/'])
    (rest : List Char) : lowerChars (lead ++ rest) = lowerChars lead ++ lowerChars rest := by
  rcases h with rfl | ⟨before, rfl⟩
  · rfl
  · have hnothing : lowerChars [] = [] := rfl
    rw [List.append_assoc, List.singleton_append, lowerChars_slash, lowerChars_slash, hnothing]
    simp

/-- **The key of a plain path under a base** is something that the base alone decides, and the
lower-case form of the path. -/
theorem exists_keyChars_beneath (base : List Char) :
    ∃ lead, ∀ path, (∀ s ∈ segments path, IsPlain s) →
      keyChars (base ++ '/' :: path) = lead ++ lowerChars path := by
  have hsegments : ∀ path, segments (slashed base ++ '/' :: path) =
      segments (slashed base) ++ segments path := pieces_append rfl (slashed base)
  obtain ⟨lead, hlead, hassemble⟩ :=
    exists_assemble_append (isLead_anchor (slashed base ++ ['/']))
      (collapse (!(anchor (slashed base ++ ['/'])).isEmpty) (segments (slashed base)))
  refine ⟨lowerChars lead, fun path hpath => ?_⟩
  have hself : slashed path = path := by
    rw [← joined_segments path, slashed_joined hpath]
  have hhead : path.head? ≠ some '/' := by
    have hslash := fun s hs => (hpath s hs).2.2.2.1
    rw [← joined_segments path]
    exact head?_joined_ne_slash hslash (head?_ne_nil_of_plain hpath)
  have hanchor : anchor (slashed base ++ '/' :: path) = anchor (slashed base ++ ['/']) := by
    rw [← anchor_append_head hhead (slashed base ++ ['/'])]
    simp
  unfold keyChars
  rw [slashed_append, slashed_cons (by decide), hself, normal_eq, hanchor, hsegments,
    collapse_append_kept fun s hs => (hpath s hs).isKept, hassemble _ (segments_ne_nil path),
    joined_segments, lowerChars_lead hlead]

/-- A plain path that is joined to a base has a key of the same form. -/
theorem exists_keyChars_joinChars (base : List Char) :
    ∃ lead, ∀ path, (∀ s ∈ segments path, IsPlain s) →
      keyChars (joinChars base path) = lead ++ lowerChars path := by
  have hrelative : ∀ path, (∀ s ∈ segments path, IsPlain s) → isAbsolute path = false := by
    intro path hpath
    have hslash := fun s hs => (hpath s hs).2.2.2.1
    rw [← joined_segments path]
    exact beq_eq_false_iff_ne.mpr (head?_joined_ne_slash hslash (head?_ne_nil_of_plain hpath))
  rcases List.eq_nil_or_concat base with rfl | ⟨before, last, rfl⟩
  · refine ⟨[], fun path hpath => ?_⟩
    have hkey := keyChars_joined (segments_ne_nil path) hpath
    rw [joined_segments] at hkey
    unfold joinChars
    rw [hrelative path hpath]
    exact hkey
  · rw [List.concat_eq_append]
    by_cases hlast : last = '/'
    · subst hlast
      obtain ⟨lead, hlead⟩ := exists_keyChars_beneath before
      refine ⟨lead, fun path hpath => ?_⟩
      rw [← hlead path hpath]
      unfold joinChars
      rw [hrelative path hpath]
      simp
    · obtain ⟨lead, hlead⟩ := exists_keyChars_beneath (before ++ [last])
      refine ⟨lead, fun path hpath => ?_⟩
      rw [← hlead path hpath]
      unfold joinChars
      rw [hrelative path hpath]
      simp [hlast]

theorem lower_eq_iff {p q : String} :
    lower p = lower q ↔ lowerChars p.toList = lowerChars q.toList :=
  ⟨String.ofList_injective, congrArg String.ofList⟩

/-- **Under one root the key tells plain paths apart as far as their lower-case forms do.** -/
theorem key_under_eq_iff (root : String) {p q : String} (hp : ∀ s ∈ segments p.toList, IsPlain s)
    (hq : ∀ s ∈ segments q.toList, IsPlain s) :
    key (root ++ "/" ++ p) = key (root ++ "/" ++ q) ↔ lower p = lower q := by
  obtain ⟨lead, hlead⟩ := exists_keyChars_beneath root.toList
  have hunder : ∀ path : String, (∀ s ∈ segments path.toList, IsPlain s) →
      key (root ++ "/" ++ path) = String.ofList (lead ++ lowerChars path.toList) := by
    intro path hpath
    unfold key
    rw [String.toList_append, String.toList_append, List.append_assoc]
    exact congrArg String.ofList (hlead path.toList hpath)
  rw [hunder p hp, hunder q hq, lower_eq_iff]
  exact ⟨fun h => List.append_cancel_left (String.ofList_injective h), fun h => by rw [h]⟩

theorem lower_of_key_join {root p q : String} (hp : ∀ s ∈ segments p.toList, IsPlain s)
    (hq : ∀ s ∈ segments q.toList, IsPlain s) (h : key (join root p) = key (join root q)) :
    lower p = lower q := by
  obtain ⟨lead, hlead⟩ := exists_keyChars_joinChars root.toList
  have hchars := String.ofList_injective h
  unfold join at hchars
  rw [String.toList_ofList, String.toList_ofList, hlead _ hp, hlead _ hq] at hchars
  exact lower_eq_iff.mpr (List.append_cancel_left hchars)

/-- **A file is lost from an index only to one that differs in letter case alone.** -/
theorem exists_find?_ofFiles (root : String) {files : List String}
    (hfiles : ∀ file ∈ files, ∀ s ∈ segments file.toList, IsPlain s) {file : String}
    (hfile : file ∈ files) :
    ∃ found ∈ files, (PathIndex.ofFiles root files).find? (key (join root file)) = some found ∧
      lower found = lower file := by
  have hsome : ((PathIndex.ofFiles root files).find? (key (join root file))).isSome = true := by
    rw [PathIndex.find?_ofFiles_last, List.find?_isSome]
    exact ⟨file, List.mem_reverse.mpr hfile, beq_self_eq_true _⟩
  obtain ⟨found, hfound⟩ := Option.isSome_iff_exists.mp hsome
  obtain ⟨hmem, hkey⟩ := PathIndex.find?_ofFiles_mem hfound
  exact ⟨found, hmem, hfound, lower_of_key_join (hfiles found hmem) (hfiles file hfile) hkey⟩

/-! ## The canonical form -/

/-- **The key of a path is a canonical form.**  It is its own key, and respellings keep it; under
one root it tells plain paths apart as far as their lower-case forms do, so that an index of files
finds for every file that file or one that differs from it in letter case alone. -/
theorem key_canonical :
    (∀ path, key (key path) = key path) ∧
      (∀ path other : String, Relation.EqvGen Respelled path.toList other.toList →
        key path = key other) ∧
      (∀ root p q : String, (∀ s ∈ segments p.toList, IsPlain s) →
        (∀ s ∈ segments q.toList, IsPlain s) →
        (key (root ++ "/" ++ p) = key (root ++ "/" ++ q) ↔ lower p = lower q)) ∧
      ∀ (root : String) (files : List String),
        (∀ file ∈ files, ∀ s ∈ segments file.toList, IsPlain s) → ∀ file ∈ files,
        ∃ found ∈ files, (PathIndex.ofFiles root files).find? (key (join root file)) = some found ∧
          lower found = lower file := by
  refine ⟨key_key, fun path other => key_of_respelled, ?_, ?_⟩
  · exact fun root p q hp hq => key_under_eq_iff root hp hq
  · exact fun root files hfiles file hfile => exists_find?_ofFiles root hfiles hfile

/-- Separators, letter case, a dot and a detour at once; a sigma that is not at the end of its word,
which is not the letter that stands there at the end of words; and two files of one index. -/
theorem key_canonical_respelled :
    key (key "\\Srv\\.\\App\\x\\../ΑΣ.ts") = key "\\Srv\\.\\App\\x\\../ΑΣ.ts" ∧
      Relation.EqvGen Respelled "\\Srv\\.\\App\\x\\../ΑΣ.ts".toList "/srv/app/ΑΣ.ts".toList ∧
      key "\\Srv\\.\\App\\x\\../ΑΣ.ts" = key "/srv/app/ΑΣ.ts" ∧
      (∀ s ∈ segments "ΑΣ.ts".toList, IsPlain s) ∧ (∀ s ∈ segments "ας.ts".toList, IsPlain s) ∧
      key ("/srv" ++ "/" ++ "ΑΣ.ts") ≠ key ("/srv" ++ "/" ++ "ας.ts") ∧
      (∀ file ∈ ["Ui/View.ts", "ui/view.ts"], ∀ s ∈ segments file.toList, IsPlain s) ∧
      "Ui/View.ts" ∈ ["Ui/View.ts", "ui/view.ts"] ∧
      ∃ found ∈ ["Ui/View.ts", "ui/view.ts"],
        (PathIndex.ofFiles "/srv" ["Ui/View.ts", "ui/view.ts"]).find?
            (key (join "/srv" "Ui/View.ts")) = some found ∧ lower found = lower "Ui/View.ts" := by
  have hrespelled :
      Relation.EqvGen Respelled "\\Srv\\.\\App\\x\\../ΑΣ.ts".toList "/srv/app/ΑΣ.ts".toList := by
    have hseparators : Respelled "\\Srv\\.\\App\\x\\../ΑΣ.ts".toList
        "/Srv/./App/x/../ΑΣ.ts".toList := .separators (by decide)
    have hstay : Respelled "/Srv/App/x/../ΑΣ.ts".toList "/Srv/./App/x/../ΑΣ.ts".toList := by
      have hout : "/Srv/App/x/../ΑΣ.ts".toList =
          "/Srv".toList ++ '/' :: "App/x/../ΑΣ.ts".toList := by decide
      have hin : "/Srv/./App/x/../ΑΣ.ts".toList =
          "/Srv".toList ++ '/' :: '.' :: '/' :: "App/x/../ΑΣ.ts".toList := by decide
      rw [hout, hin]
      exact .stay ⟨'S', by decide, rfl⟩ rfl rfl
    have hdetour : Respelled "/Srv/App/ΑΣ.ts".toList "/Srv/App/x/../ΑΣ.ts".toList := by
      have hout : "/Srv/App/ΑΣ.ts".toList = "/Srv/App".toList ++ '/' :: "ΑΣ.ts".toList := by decide
      have hin : "/Srv/App/x/../ΑΣ.ts".toList =
          "/Srv/App".toList ++ '/' :: (['x'] ++ '/' :: '.' :: '.' :: '/' :: "ΑΣ.ts".toList) := by
        decide
      rw [hout, hin]
      exact .detour ⟨'S', by decide, rfl⟩ (by decide) rfl rfl rfl
    have hletters : Respelled "/Srv/App/ΑΣ.ts".toList "/srv/app/ΑΣ.ts".toList :=
      .letters (by decide)
    exact .trans _ _ _ (.rel _ _ hseparators) (.trans _ _ _ (.symm _ _ (.rel _ _ hstay))
      (.trans _ _ _ (.symm _ _ (.rel _ _ hdetour)) (.rel _ _ hletters)))
  have hp : ∀ s ∈ segments "ΑΣ.ts".toList, IsPlain s := by decide
  have hq : ∀ s ∈ segments "ας.ts".toList, IsPlain s := by decide
  have hfiles : ∀ file ∈ ["Ui/View.ts", "ui/view.ts"], ∀ s ∈ segments file.toList, IsPlain s := by
    decide
  obtain ⟨hself, hrespell, hunder, hindex⟩ := key_canonical
  refine ⟨hself _, hrespelled, hrespell _ _ hrespelled, hp, hq, ?_, hfiles, List.mem_cons_self,
    hindex "/srv" _ hfiles _ List.mem_cons_self⟩
  rw [Ne, hunder "/srv" _ _ hp hq]
  decide +kernel

end Path

end SourceAtlas
