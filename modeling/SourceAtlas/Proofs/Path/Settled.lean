/-
# SourceAtlas.Proofs.Path.Settled — what the normal form has nothing left to do on.

The stack machine of the normal form leaves segments that lead up, in a relative path only, and then
segments that mean something of their own (`isSettled_collapse`).  On such segments it changes
nothing any more (`IsSettled.collapse`), so that a path may be collapsed in parts
(`collapse_append_of_collapse`) and the normal form is its own normal form (`normal_normal`).  An
ending that is put behind a name can be put there before the path is collapsed or after
(`normal_append_ending`).
-/
import SourceAtlas.Proofs.Path.Stack

namespace SourceAtlas.Path

open Text

variable {absolute : Bool} {parts : List (List Char)} {front path : List Char}

/-! ## Settled segments -/

/-- **`IsSettled absolute parts`** — the segments lead up some number of times, not at all in an
absolute path, and then each of them means something of its own. -/
def IsSettled (absolute : Bool) (parts : List (List Char)) : Prop :=
  ∃ ups names, parts = List.replicate ups dotDot ++ names ∧ (∀ s ∈ names, IsKept s) ∧
    (absolute = true → ups = 0)

theorem collapse_concat (absolute : Bool) (parts : List (List Char)) (segment : List Char) :
    collapse absolute (parts ++ [segment]) =
      (pushSegment absolute (collapse absolute parts).reverse segment).reverse := by
  unfold collapse
  rw [List.foldl_append, List.reverse_reverse]
  rfl

/-- One push keeps segments settled. -/
theorem IsSettled.push (h : IsSettled absolute parts) (segment : List Char) :
    IsSettled absolute (pushSegment absolute parts.reverse segment).reverse := by
  obtain ⟨ups, names, rfl, hnames, hups⟩ := h
  by_cases hskip : segment = [] ∨ segment = dot
  · have hpush : ∀ stack, pushSegment absolute stack segment = stack := by
      rcases hskip with rfl | rfl
      · exact fun _ => rfl
      · exact fun _ => rfl
    rw [hpush, List.reverse_reverse]
    exact ⟨ups, names, rfl, hnames, hups⟩
  · obtain ⟨hne, hdot⟩ := not_or.mp hskip
    by_cases hup : segment = dotDot
    · subst hup
      rcases List.eq_nil_or_concat names with rfl | ⟨below, top, rfl⟩
      · -- there is no name to take away
        cases ups with
        | zero =>
            cases absolute with
            | true => exact ⟨0, [], rfl, List.forall_mem_nil _, fun _ => rfl⟩
            | false => exact ⟨1, [], rfl, List.forall_mem_nil _, fun h => by cases h⟩
        | succ ups =>
            have hpush : pushSegment absolute (List.replicate (ups + 1) dotDot).reverse dotDot =
                (List.replicate (ups + 2) dotDot).reverse := by
              rw [List.reverse_replicate, List.reverse_replicate]
              rfl
            rw [List.append_nil, hpush, List.reverse_reverse]
            exact ⟨ups + 2, [], by simp, List.forall_mem_nil _, fun h => by cases hups h⟩
      · rw [List.concat_eq_append] at hnames ⊢
        have htop : (top == dotDot) = false :=
          beq_eq_false_iff_ne.mpr (hnames top (by simp)).2.2
        have hpush : pushSegment absolute (List.replicate ups dotDot ++ (below ++ [top])).reverse
            dotDot = (List.replicate ups dotDot ++ below).reverse := by
          rw [← List.append_assoc, List.reverse_concat]
          show (if top == dotDot then _ else _) = _
          rw [htop]
          rfl
        rw [hpush, List.reverse_reverse]
        exact ⟨ups, below, rfl, fun s hs => hnames s (List.mem_append_left _ hs), hups⟩
    · rw [pushSegment_kept ⟨hne, hdot, hup⟩, List.reverse_cons, List.reverse_reverse,
        List.append_assoc]
      refine ⟨ups, names ++ [segment], rfl, ?_, hups⟩
      exact List.forall_mem_append.mpr ⟨hnames, List.forall_mem_singleton.mpr ⟨hne, hdot, hup⟩⟩

/-- **The normal form leaves settled segments.** -/
theorem isSettled_collapse (absolute : Bool) (parts : List (List Char)) :
    IsSettled absolute (collapse absolute parts) := by
  induction parts using List.reverseRecOn with
  | nil => exact ⟨0, [], rfl, List.forall_mem_nil _, fun _ => rfl⟩
  | append_singleton parts segment ih =>
      rw [collapse_concat]
      exact ih.push segment

/-- **Settled segments stay as they are.** -/
theorem IsSettled.collapse (h : IsSettled absolute parts) : collapse absolute parts = parts := by
  obtain ⟨ups, names, rfl, hnames, hups⟩ := h
  have hlead : (List.replicate ups dotDot).foldl (pushSegment absolute) [] =
      List.replicate ups dotDot := by
    induction ups with
    | zero => rfl
    | succ ups ih =>
        cases absolute with
        | true => cases hups rfl
        | false =>
            rw [List.replicate_succ', List.foldl_append, ih fun h => by cases h]
            cases ups with
            | zero => rfl
            | succ ups =>
                rw [← List.replicate_succ']
                rfl
  unfold Path.collapse
  rw [List.foldl_append, hlead, foldl_pushSegment_kept hnames, List.reverse_append,
    List.reverse_reverse, List.reverse_replicate]

theorem collapse_collapse (absolute : Bool) (parts : List (List Char)) :
    collapse absolute (collapse absolute parts) = collapse absolute parts :=
  (isSettled_collapse absolute parts).collapse

/-- **What stands in front can be collapsed first.** -/
theorem collapse_append_of_collapse {xs ys : List (List Char)}
    (h : collapse absolute xs = collapse absolute ys) (rest : List (List Char)) :
    collapse absolute (xs ++ rest) = collapse absolute (ys ++ rest) := by
  unfold collapse at h ⊢
  rw [List.foldl_append, List.foldl_append, List.reverse_injective h]

/-- Segments with a meaning of their own stay behind what is left of those before them. -/
theorem collapse_append_kept {xs ys : List (List Char)} (h : ∀ s ∈ ys, IsKept s) :
    collapse absolute (xs ++ ys) = collapse absolute xs ++ ys := by
  unfold collapse
  rw [List.foldl_append, foldl_pushSegment_kept h, List.reverse_append, List.reverse_reverse]

/-- What is on a stack after a push was there before, or is what was pushed and means something. -/
theorem mem_pushSegment {stack : List (List Char)} {segment s : List Char}
    (h : s ∈ pushSegment absolute stack segment) :
    s ∈ stack ∨ s = segment ∧ s ≠ [] ∧ s ≠ dot := by
  by_cases hskip : (segment.isEmpty || segment == dot) = true
  · unfold pushSegment at h
    rw [if_pos hskip] at h
    exact Or.inl h
  · have hmeant : s = segment → s ≠ [] ∧ s ≠ dot := by
      rintro rfl
      simpa using hskip
    by_cases hup : segment = dotDot
    · subst hup
      cases stack with
      | nil =>
          cases absolute with
          | true => cases h
          | false => exact Or.inr ⟨List.mem_singleton.mp h, hmeant (List.mem_singleton.mp h)⟩
      | cons top below =>
          change s ∈ (if top == dotDot then dotDot :: top :: below else below) at h
          split at h
          · rcases List.mem_cons.mp h with heq | h
            · exact Or.inr ⟨heq, hmeant heq⟩
            · exact Or.inl h
          · exact Or.inl (List.mem_cons_of_mem top h)
    · obtain ⟨hne, hdot⟩ : segment ≠ [] ∧ segment ≠ dot := by simpa using hskip
      rw [pushSegment_kept ⟨hne, hdot, hup⟩] at h
      rcases List.mem_cons.mp h with heq | h
      · exact Or.inr ⟨heq, hmeant heq⟩
      · exact Or.inl h

/-- What is left of segments are some of them, none empty and none `.`. -/
theorem mem_of_mem_collapse {segment : List Char} (h : segment ∈ collapse absolute parts) :
    segment ∈ parts ∧ segment ≠ [] ∧ segment ≠ dot := by
  induction parts using List.reverseRecOn with
  | nil => cases h
  | append_singleton parts last ih =>
      rw [collapse_concat, List.mem_reverse] at h
      rcases mem_pushSegment h with hmem | ⟨rfl, hmeant⟩
      · obtain ⟨hparts, hmeant⟩ := ih (List.mem_reverse.mp hmem)
        exact ⟨List.mem_append_left _ hparts, hmeant⟩
      · exact ⟨by simp, hmeant⟩

/-! ## The normal form of what is put together -/

/-- **`IsLead front`** — the slashes that a path keeps in front: none in a relative one. -/
def IsLead (front : List Char) : Prop :=
  front = [] ∨ IsFront front

theorem isLead_anchor (path : List Char) : IsLead (anchor path) := by
  cases h : isAbsolute path with
  | true => exact Or.inr (isFront_anchor h)
  | false => exact Or.inl (anchor_relative (beq_eq_false_iff_ne.mp h))

/-- A path is absolute exactly if it keeps slashes in front. -/
theorem isAbsolute_eq (path : List Char) : isAbsolute path = !(anchor path).isEmpty := by
  cases h : isAbsolute path with
  | true =>
      rcases isFront_anchor h with hfront | hfront
      · rw [hfront]
        rfl
      · rw [hfront]
        rfl
  | false =>
      rw [anchor_relative (beq_eq_false_iff_ne.mp h)]
      rfl

theorem normal_eq (path : List Char) :
    normal path = assemble (anchor path) (collapse (!(anchor path).isEmpty) (segments path)) := by
  unfold normal
  rw [isAbsolute_eq]

theorem assemble_of_ne_nil (hne : parts ≠ []) : assemble front parts = front ++ joined parts := by
  have hparts : parts.isEmpty = false := by simpa using hne
  unfold assemble
  rw [hparts, Bool.and_false]
  rfl

/-- **The normal form of a path from its front and its segments** keeps the front and collapses the
segments. -/
theorem normal_assemble (hfront : IsLead front) (hparts : ∀ s ∈ parts, s ≠ [] ∧ '/' ∉ s) :
    normal (assemble front parts) = assemble front (collapse (!front.isEmpty) parts) := by
  have hslash : ∀ s ∈ parts, '/' ∉ s := fun s hs => (hparts s hs).2
  have hhead : parts.head? ≠ some [] := fun h => (hparts [] (List.mem_of_head? h)).1 rfl
  rcases hfront with rfl | hfront
  · by_cases hne : parts = []
    · subst hne
      rfl
    · have hfirst := head?_joined_ne_slash hslash hhead
      rw [assemble_of_ne_nil hne, List.nil_append, normal_eq, anchor_relative hfirst,
        segments_joined hne hslash]
  · have hassemble : ∀ xs, assemble front xs = front ++ joined xs := by
      intro xs
      rcases hfront with rfl | rfl
      · rfl
      · rfl
    have hne : (!front.isEmpty) = true := by
      rcases hfront with rfl | rfl
      · rfl
      · rfl
    rw [hassemble, hassemble, hne, normal_front hfront hslash hhead]

/-- The segments that are left of a path have no slash and are not empty. -/
theorem clean_of_mem_collapse_segments {segment : List Char}
    (h : segment ∈ collapse absolute (segments path)) : segment ≠ [] ∧ '/' ∉ segment :=
  ⟨(mem_of_mem_collapse h).2.1, slash_not_mem_of_mem_segments (mem_of_mem_collapse h).1⟩

/-- **The normal form is its own normal form.** -/
theorem normal_normal (path : List Char) : normal (normal path) = normal path := by
  rw [normal_eq path, normal_assemble (isLead_anchor path)
    (fun s hs => clean_of_mem_collapse_segments hs), collapse_collapse]

/-! ## Endings -/

theorem isKept_append_ending {segment ending : List Char} (hending : IsEnding ending) :
    IsKept (segment ++ ending) := by
  have hlong : 2 < (segment ++ ending).length := by
    rw [List.length_append]
    exact Nat.lt_add_left _ hending.1
  refine ⟨?_, ?_, ?_⟩
  · intro h
    rw [h] at hlong
    exact absurd hlong (by decide)
  · intro h
    rw [h] at hlong
    exact absurd hlong (by decide)
  · intro h
    rw [h] at hlong
    exact absurd hlong (by decide)

theorem segments_append_ending {dirs : List (List Char)} {last ending : List Char}
    (hpath : segments path = dirs ++ [last]) (hending : '/' ∉ ending) :
    segments (path ++ ending) = dirs ++ [last ++ ending] := by
  have hold : ∀ s ∈ dirs ++ [last], '/' ∉ s := by
    rw [← hpath]
    exact fun s hs => slash_not_mem_of_mem_segments hs
  have hslash : ∀ s ∈ dirs ++ [last ++ ending], '/' ∉ s := by
    obtain ⟨hdirs, hlast⟩ := List.forall_mem_append.mp hold
    refine List.forall_mem_append.mpr ⟨hdirs, List.forall_mem_singleton.mpr ?_⟩
    rw [List.mem_append]
    exact not_or.mpr ⟨hlast last (by simp), hending⟩
  rw [← joined_segments path, hpath, joined_concat_append,
    segments_joined (by simp) hslash]

/-- A path that ends in no slash keeps its slashes in front, whatever is put behind it. -/
theorem anchor_append {c : Char} (hc : c ∈ path) (hslash : c ≠ '/') (rest : List Char) :
    anchor (path ++ rest) = anchor path := by
  match path with
  | [] => cases hc
  | [a] =>
      have ha : a ≠ '/' := by rwa [← List.mem_singleton.mp hc]
      simp [anchor, ha]
  | [a, b] =>
      by_cases ha : a = '/'
      · subst ha
        have hb : b ≠ '/' := by
          rcases List.mem_cons.mp hc with rfl | hc
          · exact absurd rfl hslash
          · rwa [← List.mem_singleton.mp hc]
        simp [anchor, hb]
      · simp [anchor, ha]
  | a :: b :: d :: more =>
      by_cases ha : a = '/'
      · by_cases hb : b = '/'
        · by_cases hd : d = '/'
          · simp [anchor, ha, hb, hd]
          · simp [anchor, ha, hb, hd]
        · simp [anchor, ha, hb]
      · simp [anchor, ha]

/-- **An ending behind a name** can be put there before the path is collapsed or after. -/
theorem normal_append_ending {dirs : List (List Char)} {last ending : List Char}
    (hpath : segments path = dirs ++ [last]) (hlast : IsKept last) (hending : IsEnding ending) :
    normal path ++ ending = normal (path ++ ending) := by
  obtain ⟨c, hc⟩ := List.exists_mem_of_ne_nil last hlast.1
  have hmem : last ∈ segments path := hpath ▸ by simp
  have hanchor : anchor (path ++ ending) = anchor path :=
    anchor_append (mem_of_mem_segments hmem hc)
      (fun h => slash_not_mem_of_mem_segments hmem (h ▸ hc)) ending
  have hkept : IsKept (last ++ ending) := isKept_append_ending hending
  rw [normal_eq path, normal_eq (path ++ ending), hanchor, hpath,
    segments_append_ending hpath hending.2.1,
    collapse_append_kept (List.forall_mem_singleton.mpr hlast),
    collapse_append_kept (List.forall_mem_singleton.mpr hkept),
    assemble_of_ne_nil (by simp), assemble_of_ne_nil (by simp), List.append_assoc,
    joined_concat_append]

end SourceAtlas.Path
