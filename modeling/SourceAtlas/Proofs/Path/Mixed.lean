/-
# SourceAtlas.Proofs.Path.Mixed — paths with both separators.

A path may be brought into normal form first and get slashes for its backslashes afterwards, or the
other way round.  In the first order a segment with backslashes counts as one name, which a `..`
takes away as a whole, and which may be taken for a slash in front once it is the first one.

What comes of the first order under a directory is told by what is left of the path alone
(`normal_slashed_under`), since a path can be collapsed by itself before it is put behind another
one (`collapse_append_collapse`).  Where no `..` stands behind a segment with a backslash the order
makes no difference (`collapse_flatMap_expand`).
-/
import SourceAtlas.Proofs.Path.Canonical

namespace SourceAtlas.Path

open Text

variable {absolute : Bool} {parts skips dirs : List (List Char)}
  {front path segment last name : List Char}

/-! ## Segments between backslashes -/

/-- What stands between the backslashes of a segment. -/
def expand (segment : List Char) : List (List Char) :=
  segments (slashed segment)

theorem slashed_joined_map (parts : List (List Char)) :
    slashed (joined parts) = joined (parts.map slashed) := by
  induction parts with
  | nil => rfl
  | cons segment rest ih =>
      by_cases hne : rest = []
      · subst hne
        simp [joined]
      · rw [joined_cons hne, slashed_append, slashed_cons (by decide), ih, List.map_cons,
          joined_cons (by simpa using hne)]

theorem segments_joined_flatMap (hne : parts ≠ []) :
    segments (joined parts) = parts.flatMap segments := by
  induction parts with
  | nil => exact absurd rfl hne
  | cons segment rest ih =>
      by_cases hrest : rest = []
      · subst hrest
        simp [joined]
      · rw [joined_cons hrest, List.flatMap_cons, ← ih hrest]
        exact pieces_append rfl segment (joined rest)

/-- **The segments of a path with slashes** are what stands between the backslashes of
its segments. -/
theorem segments_slashed (path : List Char) :
    segments (slashed path) = (segments path).flatMap expand := by
  have hne : (segments path).map slashed ≠ [] := by simpa using segments_ne_nil path
  conv_lhs => rw [← joined_segments path, slashed_joined_map]
  rw [segments_joined_flatMap hne, List.flatMap_map]
  rfl

theorem segments_slashed_concat {more : List (List Char)} (hpath : segments path = dirs ++ [last])
    (hexpand : expand last = more ++ [name]) :
    segments (slashed path) = (dirs.flatMap expand ++ more) ++ [name] := by
  rw [segments_slashed, hpath, List.flatMap_append, List.flatMap_singleton, hexpand,
    List.append_assoc]

theorem segments_of_no_slash (h : '/' ∉ segment) : segments segment = [segment] := by
  refine pieces_of_no_cut fun c hc => beq_eq_false_iff_ne.mpr ?_
  rintro rfl
  exact h hc

theorem expand_of_no_backslash (hslash : '/' ∉ segment) (hback : '\\' ∉ segment) :
    expand segment = [segment] := by
  unfold expand slashed
  rw [replaceChar_of_not_mem hback, segments_of_no_slash hslash]

theorem flatMap_expand_eq_self (h : ∀ s ∈ parts, '/' ∉ s ∧ '\\' ∉ s) :
    parts.flatMap expand = parts := by
  induction parts with
  | nil => rfl
  | cons segment rest ih =>
      obtain ⟨⟨hslash, hback⟩, hrest⟩ := List.forall_mem_cons.mp h
      rw [List.flatMap_cons, expand_of_no_backslash hslash hback, ih hrest]
      rfl

/-! ## Collapsing in parts -/

/-- Segments that mean nothing leave nothing. -/
theorem collapse_skips (h : ∀ s ∈ skips, s = [] ∨ s = dot) (rest : List (List Char)) :
    collapse absolute (skips ++ rest) = collapse absolute rest := by
  induction skips with
  | nil => rfl
  | cons s skips ih =>
      obtain ⟨hs, hskips⟩ := List.forall_mem_cons.mp h
      rw [← ih hskips]
      rcases hs with rfl | rfl
      · rfl
      · rfl

theorem collapse_concat_skip (h : segment = [] ∨ segment = dot) (parts : List (List Char)) :
    collapse absolute (parts ++ [segment]) = collapse absolute parts := by
  rw [collapse_concat]
  have hpush : ∀ stack, pushSegment absolute stack segment = stack := by
    rcases h with rfl | rfl
    · exact fun _ => rfl
    · exact fun _ => rfl
  rw [hpush, List.reverse_reverse]

/-- A name and the `..` behind it leave nothing. -/
theorem collapse_concat_dotDot (h : IsKept segment) (parts : List (List Char)) :
    collapse absolute (parts ++ [segment] ++ [dotDot]) = collapse absolute parts := by
  have htop : (segment == dotDot) = false := beq_eq_false_iff_ne.mpr h.2.2
  have hpop : pushSegment absolute (segment :: (collapse absolute parts).reverse) dotDot =
      (collapse absolute parts).reverse := by
    show (if (segment == dotDot) = true then _ else _) = _
    rw [htop]
    rfl
  rw [collapse_concat, collapse_append_kept (List.forall_mem_singleton.mpr h),
    List.reverse_append, List.reverse_singleton, List.singleton_append, hpop, List.reverse_reverse]

/-- **A path can be collapsed by itself before it is put behind another one.** -/
theorem collapse_append_collapse (xs ys : List (List Char)) :
    collapse absolute (xs ++ collapse false ys) = collapse absolute (xs ++ ys) := by
  induction ys using List.reverseRecOn with
  | nil => rfl
  | append_singleton ys segment ih =>
      have hnext : collapse absolute (xs ++ collapse false ys ++ [segment]) =
          collapse absolute (xs ++ (ys ++ [segment])) := by
        rw [← List.append_assoc xs ys]
        exact collapse_append_of_collapse ih [segment]
      rw [← hnext]
      by_cases hskip : segment = [] ∨ segment = dot
      · rw [collapse_concat_skip hskip, collapse_concat_skip hskip]
      · obtain ⟨hne, hdot⟩ := not_or.mp hskip
        by_cases hup : segment = dotDot
        · subst hup
          obtain ⟨ups, names, hleft, hnames, -⟩ := isSettled_collapse false ys
          have hself : collapse false (ys ++ [dotDot]) =
              collapse false (List.replicate ups dotDot ++ names ++ [dotDot]) := by
            rw [← hleft]
            exact collapse_append_of_collapse (collapse_collapse false ys).symm [dotDot]
          rw [hself, hleft]
          -- the `..` stays behind others, and takes the last name away if there is one
          rcases List.eq_nil_or_concat names with rfl | ⟨before, last, rfl⟩
          · have hmore : IsSettled false (List.replicate (ups + 1) dotDot) :=
              ⟨ups + 1, [], (List.append_nil _).symm, List.forall_mem_nil _, fun h => by cases h⟩
            rw [List.append_nil, ← List.replicate_succ', hmore.collapse, List.replicate_succ',
              List.append_assoc]
          · rw [List.concat_eq_append] at hnames ⊢
            obtain ⟨hbefore, hlast⟩ := List.forall_mem_append.mp hnames
            have hkept : IsKept last := List.forall_mem_singleton.mp hlast
            have hless : IsSettled false (List.replicate ups dotDot ++ before) :=
              ⟨ups, before, rfl, hbefore, fun h => by cases h⟩
            rw [← List.append_assoc, collapse_concat_dotDot hkept, hless.collapse,
              ← List.append_assoc xs (List.replicate ups dotDot ++ before),
              collapse_concat_dotDot hkept]
        · have hkept : ∀ s ∈ [segment], IsKept s :=
            List.forall_mem_singleton.mpr ⟨hne, hdot, hup⟩
          rw [collapse_append_kept hkept, List.append_assoc]

/-- The names that are left of segments, behind those that lead up. -/
def namesLeft (parts : List (List Char)) : List (List Char) :=
  (collapse false parts).dropWhile (· == dotDot)

/-- What is left of segments leads up first, and then there are names. -/
theorem exists_namesLeft (parts : List (List Char)) :
    ∃ ups, collapse false parts = List.replicate ups dotDot ++ namesLeft parts ∧
      ∀ s ∈ namesLeft parts, IsKept s := by
  obtain ⟨ups, names, hleft, hnames, -⟩ := isSettled_collapse false parts
  have hself : namesLeft parts = names := by
    have hups : ∀ s ∈ List.replicate ups dotDot, (s == dotDot) = true := by
      intro s hs
      rw [List.eq_of_mem_replicate hs]
      rfl
    unfold namesLeft
    rw [hleft, List.dropWhile_append_of_pos hups]
    cases names with
    | nil => rfl
    | cons first rest =>
        have hfirst : first ≠ dotDot := (hnames first List.mem_cons_self).2.2
        rw [List.dropWhile_cons_of_neg (by simpa using hfirst)]
  exact ⟨ups, by rw [hself, hleft], hself.symm ▸ hnames⟩

/-- **Segments may be collapsed before they are divided at their backslashes**, if no `..` stands
behind a segment with one. -/
theorem collapse_flatMap_expand (hslash : ∀ s ∈ parts, '/' ∉ s)
    (hclimb : parts.Pairwise fun a b => '\\' ∈ a → b ≠ dotDot) :
    collapse absolute ((collapse absolute parts).flatMap expand) =
      collapse absolute (parts.flatMap expand) := by
  induction parts using List.reverseRecOn with
  | nil => rfl
  | append_singleton parts segment ih =>
      obtain ⟨hparts, -, hlast⟩ := List.pairwise_append.mp hclimb
      obtain ⟨hslashes, hsegment⟩ := List.forall_mem_append.mp hslash
      have hrest := ih hslashes hparts
      by_cases hskip : segment = [] ∨ segment = dot
      · have hself : expand segment = [segment] := by
          rcases hskip with rfl | rfl
          · rfl
          · rfl
        rw [collapse_concat_skip hskip, hrest, List.flatMap_append, List.flatMap_singleton, hself,
          collapse_concat_skip hskip]
      · obtain ⟨hne, hdot⟩ := not_or.mp hskip
        by_cases hup : segment = dotDot
        · -- no segment has a backslash, so there is nothing to divide
          have hplain : ∀ s ∈ parts ++ [segment], '/' ∉ s ∧ '\\' ∉ s := by
            intro s hs
            refine ⟨hslash s hs, fun hback => ?_⟩
            rcases List.mem_append.mp hs with hs | hs
            · exact hlast s hs segment (List.mem_singleton_self segment) hback hup
            · rw [List.mem_singleton.mp hs, hup] at hback
              exact absurd hback (by decide)
          rw [flatMap_expand_eq_self hplain,
            flatMap_expand_eq_self fun s hs => hplain s (mem_of_mem_collapse hs).1,
            collapse_collapse]
        · rw [collapse_append_kept (List.forall_mem_singleton.mpr ⟨hne, hdot, hup⟩),
            List.flatMap_append, List.flatMap_append]
          exact collapse_append_of_collapse hrest _

/-! ## Slashes for the backslashes of a normal form -/

/-- The slash of a name in front is a slash in front. -/
theorem head?_slashed_joined (hparts : ∀ s ∈ parts, s ≠ [] ∧ '/' ∉ s)
    (hlead : ∀ first ∈ parts.head?, first.head? ≠ some '\\') :
    (slashed (joined parts)).head? ≠ some '/' := by
  have hhead : (slashed (joined parts)).head? =
      (joined parts).head?.map fun c => if c == '\\' then '/' else c := List.head?_map
  rw [hhead]
  match parts with
  | [] => simp [joined]
  | [] :: _ => exact absurd rfl (hparts [] List.mem_cons_self).1
  | (c :: rest) :: more =>
      have hfirst : (joined ((c :: rest) :: more)).head? = some c := by
        cases more with
        | nil => simp [joined]
        | cons _ _ => rw [joined_cons (List.cons_ne_nil _ _)]; rfl
      have hback : c ≠ '\\' := fun hc => hlead _ rfl (congrArg some hc)
      have hslash : c ≠ '/' := fun hc =>
        (hparts _ List.mem_cons_self).2 (hc ▸ List.mem_cons_self)
      rw [hfirst, Option.map_some, if_neg (by simpa using hback)]
      exact fun h => hslash (Option.some.inj h)

theorem anchor_assemble (hfront : IsLead front) (hparts : ∀ s ∈ parts, s ≠ [] ∧ '/' ∉ s) :
    anchor (assemble front parts) = front := by
  have hhead : (joined parts).head? ≠ some '/' :=
    head?_joined_ne_slash (fun s hs => (hparts s hs).2)
      fun h => (hparts [] (List.mem_of_head? h)).1 rfl
  rcases hfront with rfl | rfl | rfl
  · by_cases hne : parts = []
    · subst hne
      rfl
    · rw [assemble_of_ne_nil hne]
      exact anchor_relative hhead
  · exact anchor_front (Or.inl rfl) hhead
  · exact anchor_front (Or.inr rfl) hhead

/-- The key of a path begins with the slashes that it begins with itself. -/
theorem anchor_keyChars (path : List Char) : anchor (keyChars path) = anchor (slashed path) := by
  unfold keyChars
  rw [anchor_lowerChars, normal_eq,
    anchor_assemble (isLead_anchor _) fun s hs => clean_of_mem_collapse_segments hs]

theorem anchor_slashed_assemble (hfront : IsLead front)
    (hparts : ∀ s ∈ parts, s ≠ [] ∧ '/' ∉ s)
    (hlead : ∀ first ∈ parts.head?, first.head? ≠ some '\\') :
    anchor (slashed (assemble front parts)) = front := by
  have hhead := head?_slashed_joined hparts hlead
  rcases hfront with rfl | rfl | rfl
  · by_cases hne : parts = []
    · subst hne
      rfl
    · rw [assemble_of_ne_nil hne]
      exact anchor_relative hhead
  · exact anchor_front (Or.inl rfl) hhead
  · exact anchor_front (Or.inr rfl) hhead

/-- The segments of what is put together are the segments behind some that mean nothing, of which
there are some behind slashes. -/
theorem exists_segments_assemble (hfront : IsLead front) (hparts : ∀ s ∈ parts, '/' ∉ s) :
    ∃ skips, segments (assemble front parts) = skips ++ parts ∧
      (∀ s ∈ skips, s = [] ∨ s = dot) ∧ (front ≠ [] → skips ≠ []) := by
  have hjoined : ∃ skips, segments (joined parts) = skips ++ parts ∧
      ∀ s ∈ skips, s = [] ∨ s = dot := by
    by_cases hne : parts = []
    · subst hne
      exact ⟨[[]], rfl, by simp⟩
    · exact ⟨[], segments_joined hne hparts, List.forall_mem_nil _⟩
  obtain ⟨skips, hskips, hall⟩ := hjoined
  rcases hfront with rfl | rfl | rfl
  · by_cases hne : parts = []
    · subst hne
      exact ⟨[dot], rfl, by simp, fun h => absurd rfl h⟩
    · rw [assemble_of_ne_nil hne]
      exact ⟨skips, hskips, hall, fun h => absurd rfl h⟩
  · refine ⟨[] :: skips, ?_, List.forall_mem_cons.mpr ⟨Or.inl rfl, hall⟩,
      fun _ => List.cons_ne_nil _ _⟩
    show segments ('/' :: joined parts) = _
    rw [segments_cons_slash, hskips]
    rfl
  · refine ⟨[] :: [] :: skips, ?_,
      List.forall_mem_cons.mpr ⟨Or.inl rfl, List.forall_mem_cons.mpr ⟨Or.inl rfl, hall⟩⟩,
      fun _ => List.cons_ne_nil _ _⟩
    show segments ('/' :: '/' :: joined parts) = _
    rw [segments_cons_slash, segments_cons_slash, hskips]
    rfl

/-- What a front and segments come to with slashes for the backslashes. -/
theorem normal_slashed_assemble (hfront : IsLead front) (hparts : ∀ s ∈ parts, s ≠ [] ∧ '/' ∉ s)
    (hlead : ∀ first ∈ parts.head?, first.head? ≠ some '\\') :
    normal (slashed (assemble front parts)) =
      assemble front (collapse (!front.isEmpty) (parts.flatMap expand)) := by
  obtain ⟨skips, hsegments, hskips, -⟩ :=
    exists_segments_assemble hfront fun s hs => (hparts s hs).2
  have hself : skips.flatMap expand = skips := by
    refine flatMap_expand_eq_self fun s hs => ?_
    rcases hskips s hs with rfl | rfl
    · decide
    · decide
  rw [normal_eq, anchor_slashed_assemble hfront hparts hlead, segments_slashed, hsegments,
    List.flatMap_append, hself, collapse_skips hskips]

/-- **The normal form of a path under a directory, with slashes for its backslashes**, comes of what
is left of the path by itself. -/
theorem normal_slashed_under (hfront : IsLead front) (hdirs : ∀ s ∈ dirs, '/' ∉ s ∧ '\\' ∉ s)
    (hslash : ∀ s ∈ parts, '/' ∉ s)
    (hlead : ∀ first ∈ (namesLeft parts).head?, first.head? ≠ some '\\') :
    normal (slashed (assemble front (collapse (!front.isEmpty) (dirs ++ parts)))) =
      assemble front (collapse (!front.isEmpty)
        (dirs ++ collapse false ((collapse false parts).flatMap expand))) := by
  obtain ⟨ups, hleft, hnames⟩ := exists_namesLeft parts
  have hplain : ∀ s ∈ collapse (!front.isEmpty) (dirs ++ List.replicate ups dotDot),
      s ≠ [] ∧ '/' ∉ s ∧ '\\' ∉ s := by
    intro s hs
    obtain ⟨hmem, hne, -⟩ := mem_of_mem_collapse hs
    refine ⟨hne, ?_⟩
    rcases List.mem_append.mp hmem with hmem | hmem
    · exact hdirs s hmem
    · rw [List.eq_of_mem_replicate hmem]
      decide
  have hclean : ∀ s ∈ namesLeft parts, s ≠ [] ∧ '/' ∉ s := by
    intro s hs
    have hmem : s ∈ collapse false parts := by
      rw [hleft]
      exact List.mem_append_right _ hs
    exact ⟨(hnames s hs).1, hslash s (mem_of_mem_collapse hmem).1⟩
  have hups : (List.replicate ups dotDot).flatMap expand = List.replicate ups dotDot := by
    refine flatMap_expand_eq_self fun s hs => ?_
    rw [List.eq_of_mem_replicate hs]
    decide
  have hleft' : collapse (!front.isEmpty) (dirs ++ parts) =
      collapse (!front.isEmpty) (dirs ++ List.replicate ups dotDot) ++ namesLeft parts := by
    rw [← collapse_append_collapse, hleft, ← List.append_assoc, collapse_append_kept hnames]
  rw [hleft', collapse_append_collapse, hleft, List.flatMap_append, hups, ← List.append_assoc]
  generalize hbelow : collapse (!front.isEmpty) (dirs ++ List.replicate ups dotDot) = below
    at hplain ⊢
  have hself : below.flatMap expand = below :=
    flatMap_expand_eq_self fun s hs => (hplain s hs).2
  rw [normal_slashed_assemble hfront, List.flatMap_append, hself]
  · rw [← hbelow]
    exact congrArg _ (collapse_append_of_collapse (collapse_collapse _ _) _)
  · exact List.forall_mem_append.mpr ⟨fun s hs => ⟨(hplain s hs).1, (hplain s hs).2.1⟩, hclean⟩
  · cases below with
    | nil => exact hlead
    | cons first rest =>
        rintro _ ⟨⟩ hhead
        exact (hplain first List.mem_cons_self).2.2 (List.mem_of_head? hhead)

/-- What is left of an absolute path is left of its normal form. -/
theorem collapse_segments_normal (habs : isAbsolute path = true) :
    collapse true (segments (normal path)) = collapse true (segments path) := by
  have hfront := isFront_anchor habs
  have hnormal : normal path = anchor path ++ joined (collapse true (segments path)) := by
    unfold normal
    rw [habs]
    rcases hfront with h | h
    · rw [h]
      rfl
    · rw [h]
      rfl
  rw [hnormal, collapse_segments_front hfront fun s hs => (clean_of_mem_collapse_segments hs).2,
    collapse_collapse]

/-! ## Segments that are put on and taken off -/

/-- One segment takes no more than one off. -/
theorem length_le_pushSegment (absolute : Bool) (stack : List (List Char)) (segment : List Char) :
    stack.length ≤ (pushSegment absolute stack segment).length + 1 := by
  unfold pushSegment
  split
  · exact Nat.le_succ _
  · split
    · cases stack with
      | nil => exact Nat.zero_le _
      | cons top below =>
          simp only
          split
          · simp
          · simp
    · rw [List.length_cons]
      exact Nat.le_add_right _ 2

/-- Segments take no more off than they are. -/
theorem length_collapse_le_append (xs ys : List (List Char)) :
    (collapse absolute xs).length ≤ (collapse absolute (xs ++ ys)).length + ys.length := by
  induction ys using List.reverseRecOn with
  | nil => simp
  | append_singleton ys segment ih =>
      have hpush := length_le_pushSegment absolute (collapse absolute (xs ++ ys)).reverse segment
      rw [List.length_reverse] at hpush
      rw [← List.append_assoc, collapse_concat, List.length_reverse, List.length_append,
        List.length_singleton]
      omega

/-- A segment without a meaning of its own puts nothing on in an absolute path. -/
theorem length_collapse_concat_le (h : ¬ IsKept segment) (parts : List (List Char)) :
    (collapse true (parts ++ [segment])).length ≤ (collapse true parts).length := by
  obtain ⟨ups, names, hcollapse, hnames, hups⟩ := isSettled_collapse true parts
  rw [hups rfl, List.replicate_zero, List.nil_append] at hcollapse
  have hclean : dotDot ∉ (collapse true parts).reverse := by
    rw [hcollapse, List.mem_reverse]
    exact fun hmem => (hnames dotDot hmem).2.2 rfl
  rw [collapse_concat, (reverse_pushSegment hclean segment).1, List.reverse_reverse]
  unfold readPart
  split
  · exact Nat.le_refl _
  · split
    · rw [List.length_dropLast]
      exact Nat.sub_le _ _
    · rename_i hskip hup
      exact absurd ⟨fun hnil => hskip (Or.inl hnil), fun hdot => hskip (Or.inr hdot), hup⟩ h

/-! ## Paths that are put together -/

/-- A segment behind a name can be put there before the path is collapsed or after. -/
theorem normal_append_segment (hpath : segments path = dirs ++ [last]) (hlast : IsKept last)
    (hname : IsKept name) (hslash : '/' ∉ name) :
    normal path ++ '/' :: name = normal (path ++ '/' :: name) := by
  obtain ⟨c, hc⟩ := List.exists_mem_of_ne_nil last hlast.1
  have hmem : last ∈ segments path := hpath ▸ by simp
  have hfront : ∃ c ∈ path, c ≠ '/' := by
    refine ⟨c, mem_of_mem_segments hmem hc, ?_⟩
    rintro rfl
    exact slash_not_mem_of_mem_segments hmem hc
  have hput : ∀ parts,
      joined (parts ++ [last] ++ [name]) = joined (parts ++ [last]) ++ '/' :: name := by
    intro parts
    rw [joined_append (by simp) (by simp)]
    simp [joined]
  rw [normal_append_slash hfront, normal_eq, segments_of_no_slash hslash, hpath,
    collapse_append_kept (List.forall_mem_singleton.mpr hname),
    collapse_append_kept (List.forall_mem_singleton.mpr hlast), assemble_of_ne_nil (by simp),
    assemble_of_ne_nil (by simp), hput, List.append_assoc]

/-- **What a dotted path comes to under a base** is told by a front and some segments of
the base. -/
theorem exists_normal_joinChars {base : List Char} (hbase : '\\' ∉ base) :
    ∃ front dirs, IsLead front ∧ (∀ s ∈ dirs, '/' ∉ s ∧ '\\' ∉ s) ∧ ∀ rest,
      normal (joinChars base ('.' :: rest)) =
        assemble front (collapse (!front.isEmpty) (dirs ++ segments ('.' :: rest))) := by
  have hsegments : ∀ text, (∀ c ∈ text, c ∈ base) → ∀ s ∈ segments text, '/' ∉ s ∧ '\\' ∉ s :=
    fun text htext s hs => ⟨slash_not_mem_of_mem_segments hs,
      fun hback => hbase (htext _ (mem_of_mem_segments hs hback))⟩
  have hdot : ∀ rest : List Char, ('.' :: rest).head? ≠ some '/' := by simp
  have hrelative : ∀ rest, isAbsolute ('.' :: rest) = false := fun _ => rfl
  rcases List.eq_nil_or_concat base with rfl | ⟨before, c, rfl⟩
  · refine ⟨[], [], Or.inl rfl, List.forall_mem_nil _, fun rest => ?_⟩
    exact normal_eq ('.' :: rest)
  · rw [List.concat_eq_append] at hsegments ⊢
    by_cases hc : c = '/'
    · subst hc
      refine ⟨anchor (before ++ ['/']), segments before, isLead_anchor _,
        hsegments before fun c hc => List.mem_append_left _ hc, fun rest => ?_⟩
      have hjoin : joinChars (before ++ ['/']) ('.' :: rest) = before ++ '/' :: '.' :: rest := by
        unfold joinChars
        rw [hrelative, if_neg Bool.false_ne_true, if_pos (by simp), List.append_assoc]
        rfl
      have hanchor : anchor (before ++ '/' :: '.' :: rest) = anchor (before ++ ['/']) := by
        rw [← anchor_append_head (hdot rest) (before ++ ['/'])]
        simp
      rw [hjoin, normal_eq, hanchor]
      exact congrArg _ (congrArg _ (pieces_append rfl before ('.' :: rest)))
    · refine ⟨anchor (before ++ [c] ++ ['/']), segments (before ++ [c]), isLead_anchor _,
        hsegments _ fun _ hmem => hmem, fun rest => ?_⟩
      have hjoin : joinChars (before ++ [c]) ('.' :: rest) =
          before ++ [c] ++ '/' :: '.' :: rest := by
        unfold joinChars
        rw [hrelative, if_neg Bool.false_ne_true, if_neg (by simpa using hc)]
      have hanchor : anchor (before ++ [c] ++ '/' :: '.' :: rest) =
          anchor (before ++ [c] ++ ['/']) := by
        rw [← anchor_append_head (hdot rest) (before ++ [c] ++ ['/'])]
        simp
      rw [hjoin, normal_eq, hanchor]
      exact congrArg _ (congrArg _ (pieces_append rfl (before ++ [c]) ('.' :: rest)))

theorem slashed_joinChars {base : List Char} (hbase : '\\' ∉ base) (rest : List Char) :
    slashed (joinChars base ('.' :: rest)) = joinChars base (slashed ('.' :: rest)) := by
  have hself : slashed base = base := replaceChar_of_not_mem hbase
  have hrelative : isAbsolute ('.' :: rest) = false := rfl
  have hrelative' : isAbsolute (slashed ('.' :: rest)) = false := rfl
  unfold joinChars
  rw [hrelative, hrelative']
  split
  · cases ‹false = true›
  · split
    · rw [slashed_append, hself]
    · rw [slashed_append, slashed_cons (by decide), hself]

end SourceAtlas.Path
