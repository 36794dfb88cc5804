/-
# SourceAtlas.Proofs.Resolve.Deep — candidates under deep directories.

Under a base a path and its spelling with slashes may have candidates of the same keys by chance:
what the path says twice can be lost in climbs, and what it lacks can be the base's own.  Under two
slashes it has to begin in a name for that (`beginsInName_of_sharesKeys`).  Under a directory that
is deeper than it climbs, all of whose segments are one name that the path does not have, nothing is
lost or supplied: there the path has to end in a name (`endsInName_of_sharesKeys`) and the order has
to make no difference (`sameEnded_of_sharesKeys`).
-/
import SourceAtlas.Proofs.Resolve.ReadsAlike
import SourceAtlas.Proofs.Resolve.Stack

namespace SourceAtlas

namespace Resolve

open SourceAtlas.Path Text

variable {path rest last name : List Char} {home dirs parts others : List (List Char)}

/-! ## Where a specifier has to read alike -/

/-- **`SharesKeys base path`** — under the base the path and its spelling with slashes have
candidates of the same keys, in whatever order. -/
def SharesKeys (base path : List Char) : Prop :=
  ∀ key, key ∈ (quotedCandidates (normal (joinChars base path))).map keyChars ↔
    key ∈ (quotedCandidates (normal (joinChars base (slashed path)))).map keyChars

theorem mem_keys_iff {key : List Char} (hpath : segments path = dirs ++ [last])
    (hlast : last ≠ []) : key ∈ (quotedCandidates path).map keyChars ↔
      ∃ ending ∈ quotedEndings, keyChars (path ++ ending) = key := by
  rw [quotedCandidates_eq hpath hlast, List.map_map, List.mem_map]
  rfl

/-- What is left of an absolute path are names. -/
theorem isKept_of_mem_collapse : ∀ s ∈ collapse true parts, IsKept s := by
  obtain ⟨ups, names, hleft, hnames, hnone⟩ := isSettled_collapse true parts
  rw [hnone rfl, List.replicate_zero, List.nil_append] at hleft
  rwa [hleft]

/-- Climbs are lost in an absolute path. -/
theorem collapse_climbs (ups : Nat) : collapse true (List.replicate ups dotDot) = [] := by
  refine List.eq_nil_iff_forall_not_mem.mpr fun s hs => ?_
  exact (isKept_of_mem_collapse s hs).2.2 (List.eq_of_mem_replicate (mem_of_mem_collapse hs).1)

theorem isHome_slashes : IsHome ['/', '/'] ['/', '/'] [] where
  lead := Or.inr (Or.inr rfl)
  clean := List.forall_mem_nil _
  noBackslash := by decide
  normal rest := normal_eq ('/' :: '/' :: '.' :: rest)

/-- Under two slashes a backslash in front is taken for a third one. -/
theorem beginsInName_of_sharesKeys (h : SharesKeys ['/', '/'] ('.' :: rest)) :
    BeginsInName ('.' :: rest) := by
  intro first hfirst hback
  obtain ⟨ups, hleft, hkept⟩ := exists_namesLeft (segments ('.' :: rest))
  obtain ⟨more, hnames⟩ := List.head?_eq_some_iff.mp hfirst
  obtain ⟨chars, rfl⟩ := List.head?_eq_some_iff.mp hback
  obtain ⟨before, last, hconcat⟩ :=
    (List.eq_nil_or_concat (namesLeft (segments ('.' :: rest)))).resolve_left
      (by rw [hnames]; exact List.cons_ne_nil _ _)
  rw [List.concat_eq_append] at hconcat
  obtain ⟨below, hpath⟩ := isHome_slashes.exists_segments_late hconcat
  have hlast : IsKept last := hkept last (by rw [hconcat]; simp)
  have hlate : normal (joinChars ['/', '/'] ('.' :: rest)) =
      '/' :: '/' :: '\\' :: (joined (('\\' :: chars) :: more)).tail := by
    have hhead : joined (('\\' :: chars) :: more) =
        '\\' :: (joined (('\\' :: chars) :: more)).tail := by
      cases more with
      | nil => simp [joined]
      | cons _ _ => rw [joined_cons (List.cons_ne_nil _ _)]; rfl
    rw [isHome_slashes.normal, ← collapse_append_collapse, hleft, List.nil_append,
      collapse_append_kept hkept]
    show assemble ['/', '/'] (collapse true _ ++ _) = _
    rw [collapse_climbs, hnames, List.nil_append, ← hhead]
    rfl
  have hmem := (h (keyChars (normal (joinChars ['/', '/'] (slashed ('.' :: rest)))))).mpr
    (List.mem_map_of_mem List.mem_cons_self)
  obtain ⟨ending, -, hkey⟩ := (mem_keys_iff hpath hlast.1).mp hmem
  have hanchor := congrArg anchor hkey
  rw [anchor_keyChars, anchor_keyChars, isHome_slashes.slashed_early, isHome_slashes.early,
    anchor_assemble isHome_slashes.lead, hlate] at hanchor
  · have hone : ['/'] = ['/', '/'] := hanchor
    exact absurd hone (by decide)
  · intro s hs
    have htidy := isTidy_leftEarly s (mem_of_mem_collapse hs).1
    exact ⟨htidy.1, htidy.2.2⟩

/-! ## How deep candidates lie -/

/-- The key of an absolute path has more segments than are left of the path. -/
theorem length_lt_segments_keyChars (habs : isAbsolute (slashed path) = true) :
    (collapse true (segments (slashed path))).length < (segments (keyChars path)).length := by
  have hslash : ∀ s ∈ collapse true (segments (slashed path)), '/' ∉ s :=
    fun s hs => (clean_of_mem_collapse_segments hs).2
  obtain ⟨skips, hsegments, -, hskips⟩ :=
    exists_segments_assemble (isLead_anchor (slashed path)) hslash
  have hanchor : anchor (slashed path) ≠ [] := by
    intro hnil
    rw [isAbsolute_eq, hnil] at habs
    cases habs
  have hpositive : 0 < skips.length := List.length_pos_iff.mpr (hskips hanchor)
  unfold keyChars
  rw [segments_lowerChars, List.length_map]
  unfold normal
  rw [habs, hsegments, List.length_append]
  omega

/-- **Behind a backslash at the end, every candidate but the path itself lies deeper** than what is
left of the path with slashes. -/
theorem length_lt_segments_ending {more : List (List Char)}
    (habs : isAbsolute (slashed path) = true)
    (hslashed : segments (slashed path) = more ++ [name]) (hname : ¬ IsKept name)
    {ending : List Char} (hending : ending ∈ quotedEndings) (hne : ending ≠ []) :
    (collapse true (segments (slashed path))).length + 1 <
      (segments (keyChars (path ++ ending))).length := by
  have hput : slashed (path ++ ending) = slashed path ++ ending := by
    rw [slashed_append, slashed_quotedEnding hending]
  have habs' : isAbsolute (slashed (path ++ ending)) = true := by
    rw [hput]
    cases hpath : slashed path with
    | nil => rw [hpath] at habs; cases habs
    | cons c rest => rwa [hpath] at habs
  refine Nat.lt_of_le_of_lt ?_ (length_lt_segments_keyChars habs')
  rw [hput]
  rcases quotedEnding_cases hending with rfl | ⟨ext, hext, rfl⟩ | ⟨segment, hsegment, rfl⟩
  · exact absurd rfl hne
  · -- the extension makes a name of what stands behind the backslash
    have hend := isEnding_extension ext hext
    rw [segments_append_ending hslashed hend.2.1, hslashed,
      collapse_append_kept (List.forall_mem_singleton.mpr (isKept_append_ending hend)),
      List.length_append, List.length_singleton]
    exact Nat.succ_le_succ (length_collapse_concat_le hname more)
  · have hsegments : segments (slashed path ++ '/' :: segment) =
        segments (slashed path) ++ [segment] := by
      rw [← segments_of_no_slash hsegment.2.2.2.1]
      exact pieces_append rfl (slashed path) segment
    rw [hsegments, collapse_append_kept (List.forall_mem_singleton.mpr hsegment.isKept),
      List.length_append]
    rfl

/-! ## Deep directories -/

/-- A directory is a home under which a path is read from its segments. -/
theorem isHome_stackPath (hhome : ∀ s ∈ home, IsPlain s) :
    IsHome (stackPath home) ['/'] home where
  lead := Or.inr (Or.inl rfl)
  clean s hs := (hhome s hs).2.2.2
  noBackslash := slashed_stackPath hhome ▸ backslash_not_mem_slashed (stackPath home)
  normal rest := by
    have hunder := under_stackPath hhome (by decide : '.' ≠ '/') rest
    unfold under at hunder
    rwa [slashed_stackPath hhome, ← collapse_append hhome] at hunder

/-- **`IsDeep home path`** — the directory is deeper than the path can climb, and all its segments
are one name that is none of the path's, also in lower case. -/
structure IsDeep (home : List (List Char)) (path : List Char) : Prop where
  deep : (segments path).length + (leftLate path).length + (leftEarly path).length < home.length
  own : ∃ own : List Char, IsPlain own ∧ lowerChars own = own ∧
    own ∉ (leftLate path).map lowerChars ∧ own ∉ (leftEarly path).map lowerChars ∧
    home = List.replicate home.length own

/-- There is a name in lower case that none of some segments is: one longer than all of them. -/
theorem exists_name_not_mem (names : List (List Char)) :
    ∃ own, IsPlain own ∧ lowerChars own = own ∧ own ∉ names := by
  obtain ⟨own, hown, hne, hlong⟩ : ∃ own : List Char, (∀ c ∈ own, c = 'h') ∧ own ≠ [] ∧
      ∀ s ∈ names, s.length < own.length := by
    refine ⟨List.replicate (names.flatten.length + 1) 'h', fun c => List.eq_of_mem_replicate,
      by simp, fun s hs => ?_⟩
    rw [List.length_replicate]
    exact Nat.lt_succ_of_le (List.sublist_flatten_of_mem hs).length_le
  have hother : ∀ other : List Char, 'h' ∉ other → own ≠ other := by
    rintro other hnot rfl
    obtain ⟨c, hc⟩ := List.exists_mem_of_ne_nil own hne
    exact hnot (hown c hc ▸ hc)
  have hletter : IsLowered 'h' := by
    unfold IsLowered
    decide +kernel
  refine ⟨own, ⟨hne, hother dot (by decide), hother dotDot (by decide), ?_, ?_⟩, ?_, ?_⟩
  · exact fun h => absurd (hown _ h) (by decide)
  · exact fun h => absurd (hown _ h) (by decide)
  · exact lowerFrom_of_isLowered (fun c hc => hown c hc ▸ hletter) false
  · exact fun hmem => Nat.lt_irrefl _ (hlong own hmem)

theorem exists_isDeep (path : List Char) : ∃ home, IsDeep home path := by
  obtain ⟨own, hplain, hlower, hnot⟩ :=
    exists_name_not_mem ((leftLate path).map lowerChars ++ (leftEarly path).map lowerChars)
  rw [List.mem_append, not_or] at hnot
  refine ⟨List.replicate ((segments path).length + (leftLate path).length +
    (leftEarly path).length + 1) own, ?_, own, hplain, hlower, hnot.1, hnot.2, ?_⟩
  · rw [List.length_replicate]
    exact Nat.lt_succ_self _
  · rw [List.length_replicate]

theorem IsDeep.plain (h : IsDeep home path) : ∀ s ∈ home, IsPlain s := by
  obtain ⟨own, hplain, -, -, -, hself⟩ := h.own
  intro s hs
  rw [hself] at hs
  rw [List.eq_of_mem_replicate hs]
  exact hplain

/-- Something is left of a directory that is deeper than what stands behind it. -/
theorem exists_concat_of_deep (hhome : ∀ s ∈ home, IsPlain s)
    (hdeep : parts.length < home.length) (hslash : ∀ s ∈ parts, '/' ∉ s) :
    ∃ below last, collapse true (home ++ parts) = below ++ [last] ∧ IsKept last ∧
      segments (assemble ['/'] (collapse true (home ++ parts))) =
        [] :: collapse true (home ++ parts) := by
  have hlength : (collapse true home).length ≤ _ := length_collapse_le_append home parts
  rw [collapse_plain hhome] at hlength
  have hne : collapse true (home ++ parts) ≠ [] := by
    intro hnil
    rw [hnil, List.length_nil] at hlength
    omega
  obtain ⟨below, last, hconcat⟩ := (List.eq_nil_or_concat _).resolve_left hne
  rw [List.concat_eq_append] at hconcat
  refine ⟨below, last, hconcat, isKept_of_mem_collapse last (by rw [hconcat]; simp), ?_⟩
  have hclean : ∀ s ∈ collapse true (home ++ parts), '/' ∉ s := by
    intro s hs
    rcases List.mem_append.mp (mem_of_mem_collapse hs).1 with hmem | hmem
    · exact (hhome s hmem).2.2.2.1
    · exact hslash s hmem
  exact segments_stackPath hclean hne

theorem length_segments_append (h : '/' ∉ name) :
    (segments (path ++ name)).length = (segments path).length := by
  obtain ⟨dirs, last, hpath⟩ := exists_segments_concat path
  rw [segments_append_ending hpath h, hpath]
  simp

theorem length_segments_append_le {ending : List Char} (hending : ending ∈ quotedEndings) :
    (segments path).length ≤ (segments (path ++ ending)).length := by
  rcases quotedEnding_cases hending with rfl | ⟨ext, hext, rfl⟩ | ⟨name, -, rfl⟩
  · rw [List.append_nil]
  · rw [length_segments_append (isEnding_extension ext hext).2.1]
  · have hsegments : segments (path ++ '/' :: name) = segments path ++ segments name :=
      pieces_append rfl path name
    rw [hsegments, List.length_append]
    exact Nat.le_add_right _ _

/-- The keys of the candidates of the spelling with slashes in a deep directory. -/
theorem IsDeep.mem_keys_early (h : IsDeep home ('.' :: rest)) (key : List Char) :
    key ∈ (quotedCandidates (normal (joinChars (stackPath home)
        (slashed ('.' :: rest))))).map keyChars ↔
      ∃ ending ∈ quotedEndings, lowerChars (assemble ['/']
        (collapse true (home ++ leftEarly ('.' :: rest))) ++ ending) = key := by
  have hhome := isHome_stackPath h.plain
  have hlengths := h.deep
  obtain ⟨below, last, hconcat, hlast, hsegments⟩ := exists_concat_of_deep h.plain
    (by omega : (leftEarly ('.' :: rest)).length < home.length)
    fun s hs => (isTidy_leftEarly s hs).2.2
  have hpath : segments (normal (joinChars (stackPath home) (slashed ('.' :: rest)))) =
      ([] :: below) ++ [last] := by
    rw [hhome.early]
    exact hsegments.trans (congrArg _ hconcat)
  rw [mem_keys_iff hpath hlast.1]
  refine exists_congr fun ending => and_congr_right fun hending => ?_
  rw [hhome.keyChars_early hpath hlast hending]
  rfl

/-- **A path that does not end in a name lies as deep as what is left of it, its other candidates
deeper.** -/
theorem IsDeep.depth_late {more : List (List Char)} (h : IsDeep home ('.' :: rest))
    (hbegins : BeginsInName ('.' :: rest))
    (hpath : segments (normal (joinChars (stackPath home) ('.' :: rest))) = dirs ++ [last])
    (hexpand : expand last = more ++ [name]) (hname : ¬ IsKept name) :
    (segments (keyChars (normal (joinChars (stackPath home) ('.' :: rest))))).length =
        (collapse true (home ++ leftLate ('.' :: rest))).length + 1 ∧
      ∀ ending ∈ quotedEndings, ending ≠ [] →
        (collapse true (home ++ leftLate ('.' :: rest))).length + 1 <
          (segments (keyChars (normal (joinChars (stackPath home) ('.' :: rest)) ++
            ending))).length := by
  have hhome := isHome_stackPath h.plain
  have hlengths := h.deep
  obtain ⟨-, -, -, -, hsegments⟩ := exists_concat_of_deep h.plain
    (by omega : (leftLate ('.' :: rest)).length < home.length)
    fun s hs => (isTidy_leftLate s hs).2.2
  have hlate : segments (normal (slashed (normal (joinChars (stackPath home) ('.' :: rest))))) =
      [] :: collapse true (home ++ leftLate ('.' :: rest)) := by
    rw [hhome.late hbegins]
    exact hsegments
  refine ⟨?_, fun ending hending hne => ?_⟩
  · unfold keyChars
    rw [segments_lowerChars, List.length_map, hlate, List.length_cons]
  · have habs :
        isAbsolute (slashed (normal (joinChars (stackPath home) ('.' :: rest)))) = true := by
      rw [hhome.normal]
      rfl
    have hleft : collapse true
        (segments (slashed (normal (joinChars (stackPath home) ('.' :: rest))))) =
          collapse true (home ++ leftLate ('.' :: rest)) := by
      rw [← collapse_segments_normal habs, hlate]
      exact collapse_collapse true _
    rw [← hleft]
    exact length_lt_segments_ending habs (segments_slashed_concat hpath hexpand) hname hending hne

/-- **In a deep directory a path has to end in a name**: otherwise all its candidates but itself lie
deeper than two of its spelling with slashes. -/
theorem endsInName_of_sharesKeys (hdeep : IsDeep home ('.' :: rest))
    (hbegins : BeginsInName ('.' :: rest)) (h : SharesKeys (stackPath home) ('.' :: rest)) :
    EndsInName ('.' :: rest) := by
  intro last hlast hback name hname
  by_contra hnot
  obtain ⟨before, hnames⟩ := List.getLast?_eq_some_iff.mp hlast
  obtain ⟨more, hexpand⟩ := List.getLast?_eq_some_iff.mp hname
  obtain ⟨-, -, hkept⟩ := exists_namesLeft (segments ('.' :: rest))
  have hne : last ≠ [] := (hkept last (by rw [hnames]; simp)).1
  have hlengths := hdeep.deep
  obtain ⟨below, hpath⟩ := (isHome_stackPath hdeep.plain).exists_segments_late hnames
  obtain ⟨-, -, -, -, hearly⟩ := exists_concat_of_deep hdeep.plain
    (by omega : (leftEarly ('.' :: rest)).length < home.length)
    fun s hs => (isTidy_leftEarly s hs).2.2
  obtain ⟨hself, hother⟩ := hdeep.depth_late hbegins hpath hexpand hnot
  generalize collapse true (home ++ leftLate ('.' :: rest)) = late at hself hother
  have hdepth : ∀ ending, '/' ∉ ending → (segments (lowerChars (assemble ['/']
      (collapse true (home ++ leftEarly ('.' :: rest))) ++ ending))).length =
        (collapse true (home ++ leftEarly ('.' :: rest))).length + 1 := by
    intro ending hslash
    rw [segments_lowerChars, List.length_map, length_segments_append hslash, hearly,
      List.length_cons]
  have hin := fun key => hdeep.mem_keys_early key
  generalize collapse true (home ++ leftEarly ('.' :: rest)) = early at hearly hin hdepth
  -- no candidate of the spelling with slashes lies higher than that spelling
  have hlow : early.length ≤ late.length := by
    obtain ⟨ending, hending, hkey⟩ :=
      (hin _).mp ((h _).mp (List.mem_map_of_mem List.mem_cons_self))
    have hdeeper : (segments (assemble ['/'] early)).length ≤
        (segments (assemble ['/'] early ++ ending)).length := length_segments_append_le hending
    have hheight : (segments (assemble ['/'] early ++ ending)).length = late.length + 1 := by
      rw [← hself, ← hkey, segments_lowerChars, List.length_map]
    rw [hheight, hearly, List.length_cons] at hdeeper
    exact Nat.le_of_succ_le_succ hdeeper
  -- so the path itself is the only one of its candidates that can be as high
  have hsame : ∀ ending ∈ quotedEndings, '/' ∉ ending →
      lowerChars (assemble ['/'] early ++ ending) =
        keyChars (normal (joinChars (stackPath home) ('.' :: rest))) := by
    intro ending hending hslash
    obtain ⟨other, hmem, hkey⟩ := (mem_keys_iff hpath hne).mp
      ((h _).mpr ((hin _).mpr ⟨ending, hending, rfl⟩))
    by_cases hnil : other = []
    · rw [← hkey, hnil, List.append_nil]
    · have hdeeper := hother other hmem hnil
      rw [hkey, hdepth ending hslash] at hdeeper
      omega
  have hts : ".ts".toList ∈ quotedEndings := extension_mem_quotedEndings List.mem_cons_self
  have htwo := (hsame ".ts".toList hts (by decide)).trans
    (hsame [] nil_mem_quotedEndings List.not_mem_nil).symm
  rw [List.append_nil] at htwo
  exact lowerChars_append_ne hts (by decide) htwo

/-- In a deep directory the path ends in a name, also behind its last backslash. -/
theorem IsDeep.exists_end (h : IsDeep home ('.' :: rest)) (hends : EndsInName ('.' :: rest)) :
    ∃ below last more name,
      segments (normal (joinChars (stackPath home) ('.' :: rest))) = below ++ [last] ∧
        IsKept last ∧ expand last = more ++ [name] ∧ IsKept name := by
  have hhome := isHome_stackPath h.plain
  obtain ⟨ups, hleft, hkept⟩ := exists_namesLeft (segments ('.' :: rest))
  rcases List.eq_nil_or_concat (namesLeft (segments ('.' :: rest))) with
    hnil | ⟨before, last, hnames⟩
  · -- the last name is one of the directory's, which has no backslash
    have hlengths := h.deep
    obtain ⟨below, last, hconcat, hlast, hsegments⟩ := exists_concat_of_deep h.plain
      (by omega : (segments ('.' :: rest)).length < home.length)
      fun s hs => slash_not_mem_of_mem_segments hs
    have hmem : last ∈ collapse true (home ++ segments ('.' :: rest)) := by
      rw [hconcat]
      simp
    rw [← collapse_append_collapse, hleft, hnil, List.append_nil] at hmem
    have hclean : '/' ∉ last ∧ '\\' ∉ last := by
      rcases List.mem_append.mp (mem_of_mem_collapse hmem).1 with hmem | hmem
      · exact (h.plain last hmem).2.2.2
      · exact absurd (List.eq_of_mem_replicate hmem) hlast.2.2
    refine ⟨[] :: below, last, [], last, ?_, hlast,
      expand_of_no_backslash hclean.1 hclean.2, hlast⟩
    rw [hhome.normal]
    exact hsegments.trans (congrArg _ hconcat)
  · rw [List.concat_eq_append] at hnames
    obtain ⟨below, hpath⟩ := hhome.exists_segments_late hnames
    obtain ⟨more, name, hexpand, -⟩ := exists_expand_concat last
    exact ⟨below, last, more, name, hpath, hkept last (by rw [hnames]; simp), hexpand,
      hends.isKept hnames hexpand⟩

/-- Behind copies of a name that they do not have, segments are alike only if they are alike
themselves. -/
theorem SameEnded.of_replicate {own : List Char} {m n : Nat} (hown : lowerChars own = own)
    (hparts : own ∉ parts.map lowerChars) (hothers : own ∉ others.map lowerChars)
    (h : SameEnded (List.replicate m own ++ parts) (List.replicate n own ++ others)) :
    m = n ∧ SameEnded parts others := by
  have hmap := h.1
  rw [List.map_append, List.map_append, List.map_replicate, List.map_replicate, hown] at hmap
  have hcount := congrArg (List.count own) hmap
  rw [List.count_append, List.count_append, List.count_replicate_self, List.count_replicate_self,
    List.count_eq_zero_of_not_mem hparts, List.count_eq_zero_of_not_mem hothers] at hcount
  obtain rfl : m = n := hcount
  exact ⟨rfl, (sameEnded_append_iff _).mp h⟩

/-- What is left behind a directory of one name is some of its copies and the names that
are left. -/
theorem collapse_replicate_append {own : List Char} {n ups : Nat} {names : List (List Char)}
    (hown : IsPlain own) (hups : ups ≤ n) (hnames : ∀ s ∈ names, IsKept s) :
    collapse true (List.replicate n own ++ (List.replicate ups dotDot ++ names)) =
      List.replicate (n - ups) own ++ names := by
  have hplain : ∀ m, ∀ s ∈ List.replicate m own, IsPlain s :=
    fun m s hs => (List.eq_of_mem_replicate hs).symm ▸ hown
  have hclimb := collapse_climb true (hplain (n - ups)) (hplain ups) (List.forall_mem_nil _)
  rw [List.replicate_append_replicate, Nat.sub_add_cancel hups, List.length_replicate,
    List.append_nil, List.append_nil] at hclimb
  rw [← List.append_assoc, collapse_append_kept hnames, hclimb]

/-- **What is alike behind a deep directory is alike itself**: the directory tells how often each
climbs. -/
theorem IsDeep.sameEnded (hdeep : IsDeep home path)
    (h : SameEnded (collapse true (home ++ leftLate path))
      (collapse true (home ++ leftEarly path))) : SameEnded (leftLate path) (leftEarly path) := by
  obtain ⟨own, hplain, hlower, hlate, hearly, hself⟩ := hdeep.own
  have hlengths := hdeep.deep
  obtain ⟨ups, names, hleft, hnames, -⟩ : IsSettled false (leftLate path) := isSettled_collapse _ _
  obtain ⟨ups', names', hleft', hnames', -⟩ : IsSettled false (leftEarly path) :=
    isSettled_collapse _ _
  have hnot : ∀ {ups names}, own ∉ (List.replicate ups dotDot ++ names).map lowerChars →
      own ∉ names.map lowerChars := by
    intro ups names hnot hmem
    rw [List.map_append] at hnot
    exact hnot (List.mem_append_right _ hmem)
  rw [hleft] at hlate
  rw [hleft'] at hearly
  rw [hleft, hleft', List.length_append, List.length_append, List.length_replicate,
    List.length_replicate] at hlengths
  rw [hself, hleft, hleft', collapse_replicate_append hplain (by omega) hnames,
    collapse_replicate_append hplain (by omega) hnames'] at h
  obtain ⟨hcopies, hsame⟩ := h.of_replicate hlower (hnot hlate) (hnot hearly)
  obtain rfl : ups = ups' := by omega
  rw [hleft, hleft']
  exact (sameEnded_append_iff _).mpr hsame

/-- The keys of the candidates of a path that ends in a name in a deep directory. -/
theorem IsDeep.mem_keys_late {key : List Char} (h : IsDeep home ('.' :: rest))
    (hbegins : BeginsInName ('.' :: rest)) (hends : EndsInName ('.' :: rest)) :
    key ∈ (quotedCandidates (normal (joinChars (stackPath home) ('.' :: rest)))).map keyChars ↔
      ∃ ending ∈ quotedEndings, lowerChars (assemble ['/']
        (collapse true (home ++ leftLate ('.' :: rest))) ++ ending) = key := by
  obtain ⟨below, last, more, name, hpath, hlast, hexpand, hname⟩ := h.exists_end hends
  rw [mem_keys_iff hpath hlast.1]
  refine exists_congr fun ending => and_congr_right fun hending => ?_
  rw [(isHome_stackPath h.plain).keyChars_late hbegins hpath hexpand hname hending]
  rfl

/-- **In a deep directory the order makes no difference** if the candidates have the same keys. -/
theorem sameEnded_of_sharesKeys (hdeep : IsDeep home ('.' :: rest))
    (hbegins : BeginsInName ('.' :: rest)) (hends : EndsInName ('.' :: rest))
    (h : SharesKeys (stackPath home) ('.' :: rest)) :
    SameEnded (leftLate ('.' :: rest)) (leftEarly ('.' :: rest)) := by
  have htidy : ∀ {parts}, (∀ s ∈ parts, IsTidy s) →
      ∀ s ∈ collapse true (home ++ parts), IsTidy s := fun hparts =>
    isTidy_of_mem_collapse (List.forall_mem_append.mpr
      ⟨fun s hs => (hdeep.plain s hs).2.2.2.1, fun s hs => (hparts s hs).2.2⟩)
  have hlead : IsLead ['/'] := Or.inr (Or.inl rfl)
  refine hdeep.sameEnded ((lowerChars_assemble_append_iff hlead (htidy isTidy_leftLate)
    (htidy isTidy_leftEarly)).mp (lowerChars_append_eq_of_iff fun key => ?_))
  rw [← hdeep.mem_keys_late hbegins hends, ← hdeep.mem_keys_early key]
  exact h key

end Resolve

end SourceAtlas
