/-
# SourceAtlas.Proofs.Resolve.ReadsAlike — specifiers that are read alike with slashes.

The backslashes of a specifier become slashes last: after it has been joined to the directory and
brought into normal form, and after extensions have been put behind it.  `ReadsAlike` says when this
makes no difference: the normal form has the same names whether it is made before the slashes or
after, it does not begin with a backslash, and it ends in a name.  Under every base the candidates
have the same keys then (`IsHome.map_keyChars`).  Which names are left can differ only if a `..`
takes a segment with a backslash away (`readsAlike_iff_of_climbsFirst`).
-/
import SourceAtlas.Proofs.Resolve.Endings

namespace SourceAtlas

namespace Resolve

open SourceAtlas.Path Text

variable {base front path last name : List Char} {dirs parts others : List (List Char)}

/-! ## What is left of a specifier -/

/-- The segments that are left of a path which gets slashes for its backslashes afterwards. -/
def leftLate (path : List Char) : List (List Char) :=
  collapse false ((collapse false (segments path)).flatMap expand)

/-- The segments that are left of a path which gets slashes for its backslashes before. -/
def leftEarly (path : List Char) : List (List Char) :=
  collapse false (segments (slashed path))

/-- **`BeginsInName path`** — the first name that is left does not begin with a backslash. -/
def BeginsInName (path : List Char) : Prop :=
  ∀ first ∈ (namesLeft (segments path)).head?, first.head? ≠ some '\\'

/-- **`EndsInName path`** — if the last name that is left has a backslash, then what stands behind
its last one means something of its own. -/
def EndsInName (path : List Char) : Prop :=
  ∀ last ∈ (namesLeft (segments path)).getLast?, '\\' ∈ last →
    ∀ name ∈ (expand last).getLast?, IsKept name

/-- **`ReadsAlike path`** — the path and its spelling with slashes are read alike: the normal form
may be made before the slashes or after, up to letter case and whatever ending is put behind it, and
it begins and ends in a name. -/
structure ReadsAlike (path : List Char) : Prop where
  order : ∀ ending ∈ quotedEndings, lowerChars (normal (slashed (normal path)) ++ ending) =
    lowerChars (normal (slashed path) ++ ending)
  begins : BeginsInName path
  ends : EndsInName path

instance : DecidablePred BeginsInName :=
  fun path => inferInstanceAs (Decidable (∀ first ∈ (namesLeft (segments path)).head?, _))

instance : DecidablePred EndsInName :=
  fun path => inferInstanceAs (Decidable (∀ last ∈ (namesLeft (segments path)).getLast?,
    '\\' ∈ last → ∀ name ∈ (expand last).getLast?, IsKept name))

instance : DecidablePred ReadsAlike :=
  fun path =>
    decidable_of_iff
      ((∀ ending ∈ quotedEndings, lowerChars (normal (slashed (normal path)) ++ ending) =
        lowerChars (normal (slashed path) ++ ending)) ∧ BeginsInName path ∧ EndsInName path)
      ⟨fun h => ⟨h.1, h.2.1, h.2.2⟩, fun h => ⟨h.1, h.2, h.3⟩⟩

theorem slash_not_mem_of_mem_flatMap_expand {segment : List Char}
    (h : segment ∈ parts.flatMap expand) : '/' ∉ segment := by
  obtain ⟨whole, -, hmem⟩ := List.mem_flatMap.mp h
  exact slash_not_mem_of_mem_segments hmem

theorem isTidy_of_mem_collapse {absolute : Bool} (hslash : ∀ s ∈ parts, '/' ∉ s) :
    ∀ s ∈ collapse absolute parts, IsTidy s :=
  fun s hs => ⟨(mem_of_mem_collapse hs).2.1, (mem_of_mem_collapse hs).2.2,
    hslash s (mem_of_mem_collapse hs).1⟩

theorem isTidy_leftLate : ∀ s ∈ leftLate path, IsTidy s :=
  isTidy_of_mem_collapse fun _ hs => slash_not_mem_of_mem_flatMap_expand hs

theorem isTidy_leftEarly : ∀ s ∈ leftEarly path, IsTidy s :=
  isTidy_of_mem_collapse fun _ hs => slash_not_mem_of_mem_segments hs

/-- The order makes no difference exactly if the segments that are left are alike. -/
theorem sameEnded_left_iff {rest : List Char} (hbegins : BeginsInName ('.' :: rest)) :
    (∀ ending ∈ quotedEndings,
        lowerChars (normal (slashed (normal ('.' :: rest))) ++ ending) =
          lowerChars (normal (slashed ('.' :: rest)) ++ ending)) ↔
      SameEnded (leftLate ('.' :: rest)) (leftEarly ('.' :: rest)) := by
  have hlead : IsLead [] := Or.inl rfl
  have hlate : normal (slashed (normal ('.' :: rest))) = assemble [] (leftLate ('.' :: rest)) := by
    have hslash : ∀ s ∈ segments ('.' :: rest), '/' ∉ s :=
      fun _ hs => slash_not_mem_of_mem_segments hs
    have hunder := normal_slashed_under hlead (List.forall_mem_nil _) hslash hbegins
    exact hunder.trans (congrArg _ (collapse_collapse false _))
  have hearly : normal (slashed ('.' :: rest)) = assemble [] (leftEarly ('.' :: rest)) :=
    normal_eq (slashed ('.' :: rest))
  rw [hlate, hearly]
  exact lowerChars_assemble_append_iff hlead isTidy_leftLate isTidy_leftEarly

/-- **`ClimbsFirst path`** — no `..` stands behind a segment with a backslash. -/
def ClimbsFirst (path : List Char) : Prop :=
  (segments path).Pairwise fun a b => '\\' ∈ a → b ≠ dotDot

instance : DecidablePred ClimbsFirst :=
  fun path =>
    inferInstanceAs (Decidable ((segments path).Pairwise fun a b => '\\' ∈ a → b ≠ dotDot))

/-- **Where no `..` takes a segment with a backslash away**, the order makes no difference. -/
theorem readsAlike_iff_of_climbsFirst {rest : List Char} (h : ClimbsFirst ('.' :: rest)) :
    ReadsAlike ('.' :: rest) ↔ BeginsInName ('.' :: rest) ∧ EndsInName ('.' :: rest) := by
  refine ⟨fun hreads => ⟨hreads.begins, hreads.ends⟩, fun ⟨hbegins, hends⟩ => ?_⟩
  refine ⟨?_, hbegins, hends⟩
  have hleft : leftLate ('.' :: rest) = leftEarly ('.' :: rest) := by
    unfold leftLate leftEarly
    rw [segments_slashed]
    exact collapse_flatMap_expand (fun s hs => slash_not_mem_of_mem_segments hs) h
  rw [sameEnded_left_iff hbegins, hleft]
  exact ⟨rfl, fun _ _ => rfl⟩

/-- Nothing but climbs is alike to climbs. -/
theorem eq_climbs_of_sameEnded {ups : Nat} (h : SameEnded (List.replicate ups dotDot) others) :
    others = List.replicate ups dotDot := by
  have hmap := h.1
  rw [List.map_replicate, lowerChars_eq_dotDot.mpr rfl] at hmap
  refine List.eq_replicate_iff.mpr ⟨?_, fun s hs => ?_⟩
  · have hlength := congrArg List.length hmap
    rw [List.length_replicate, List.length_map] at hlength
    exact hlength.symm
  · have hlower : lowerChars s ∈ List.replicate ups dotDot := hmap ▸ List.mem_map_of_mem hs
    exact lowerChars_eq_dotDot.mp (List.eq_of_mem_replicate hlower)

/-- What is alike to segments that end in a name ends in a name. -/
theorem SameEnded.exists_kept {before : List (List Char)} (h : SameEnded (before ++ [last]) others)
    (hlast : IsKept last) (hothers : ∀ s ∈ others, IsTidy s) :
    ∃ before' last', others = before' ++ [last'] ∧ IsKept last' ∧
      ∀ front : List (List Char), ∀ absolute,
        SameEnded (collapse absolute (front ++ before) ++ [last])
          (collapse absolute (front ++ before') ++ [last']) := by
  rcases h.cases with ⟨hnil, -⟩ | ⟨same, before', self, last', heq, rfl, hbefore, hlower, hended⟩
  · exact absurd hnil (by simp)
  · obtain ⟨rfl, hself⟩ := List.append_inj' heq rfl
    obtain rfl : last = self := List.singleton_inj.mp hself
    have htidy : IsTidy last' := hothers last' (by simp)
    refine ⟨before', last', rfl, ⟨htidy.1, htidy.2.1, ?_⟩, fun front absolute => ?_⟩
    · rintro rfl
      rw [lowerChars_eq_dotDot.mpr rfl] at hlower
      exact hlast.2.2 (lowerChars_eq_dotDot.mp hlower)
    · refine SameEnded.of_concat ?_ hlower hended
      rw [← collapse_map_lowerChars, ← collapse_map_lowerChars, List.map_append, List.map_append,
        hbefore]

/-- **What is alike stays alike behind the same segments.** -/
theorem SameEnded.behind {absolute : Bool} (hparts : IsSettled false parts)
    (hothers : ∀ s ∈ others, IsTidy s) (h : SameEnded parts others) (dirs : List (List Char)) :
    SameEnded (collapse absolute (dirs ++ parts)) (collapse absolute (dirs ++ others)) := by
  obtain ⟨ups, names, rfl, hnames, -⟩ := hparts
  rcases List.eq_nil_or_concat names with rfl | ⟨between, last, rfl⟩
  · rw [List.append_nil] at h ⊢
    rw [eq_climbs_of_sameEnded h]
    exact ⟨rfl, fun _ _ => rfl⟩
  · rw [List.concat_eq_append] at hnames h ⊢
    have hlast : IsKept last := hnames last (by simp)
    rw [← List.append_assoc] at h
    obtain ⟨before', last', rfl, hlast', hbehind⟩ := h.exists_kept hlast hothers
    have hput : ∀ before last, IsKept last → collapse absolute (dirs ++ (before ++ [last])) =
        collapse absolute (dirs ++ before) ++ [last] := by
      intro before last hlast
      rw [← List.append_assoc, collapse_append_kept (List.forall_mem_singleton.mpr hlast)]
    rw [hput before' last' hlast', ← List.append_assoc (List.replicate ups dotDot),
      hput _ last hlast]
    exact hbehind dirs absolute

/-! ## Homes -/

/-- **`IsHome base front dirs`** — a dotted path comes under the base to a front and to what is left
of its segments behind those of the base. -/
structure IsHome (base front : List Char) (dirs : List (List Char)) : Prop where
  lead : IsLead front
  clean : ∀ s ∈ dirs, '/' ∉ s ∧ '\\' ∉ s
  noBackslash : '\\' ∉ base
  normal : ∀ rest, Path.normal (joinChars base ('.' :: rest)) =
    assemble front (collapse (!front.isEmpty) (dirs ++ segments ('.' :: rest)))

theorem exists_isHome (hbase : '\\' ∉ base) : ∃ front dirs, IsHome base front dirs := by
  obtain ⟨front, dirs, hfront, hdirs, hnormal⟩ := exists_normal_joinChars hbase
  exact ⟨front, dirs, hfront, hdirs, hbase, hnormal⟩

theorem IsHome.late (h : IsHome base front dirs) {rest : List Char}
    (hbegins : BeginsInName ('.' :: rest)) :
    Path.normal (slashed (Path.normal (joinChars base ('.' :: rest)))) =
      assemble front (collapse (!front.isEmpty) (dirs ++ leftLate ('.' :: rest))) := by
  rw [h.normal]
  exact normal_slashed_under h.lead h.clean (fun s hs => slash_not_mem_of_mem_segments hs) hbegins

theorem IsHome.early (h : IsHome base front dirs) (rest : List Char) :
    Path.normal (joinChars base (slashed ('.' :: rest))) =
      assemble front (collapse (!front.isEmpty) (dirs ++ leftEarly ('.' :: rest))) := by
  unfold leftEarly
  rw [collapse_append_collapse]
  exact h.normal (slashed rest)

/-- The spelling with slashes comes to a path without backslashes. -/
theorem IsHome.slashed_early (h : IsHome base front dirs) (rest : List Char) :
    slashed (Path.normal (joinChars base (slashed ('.' :: rest)))) =
      Path.normal (joinChars base (slashed ('.' :: rest))) := by
  rw [← slashed_joinChars h.noBackslash]
  exact replaceChar_of_not_mem (backslash_not_mem_normal (backslash_not_mem_slashed _))

/-- Behind the base, segments end in the last of them if it is a name. -/
theorem IsHome.exists_segments (h : IsHome base front dirs) {before : List (List Char)}
    (hlast : IsKept last) (hslash : ∀ s ∈ before ++ [last], '/' ∉ s) :
    ∃ below, segments (assemble front (collapse (!front.isEmpty) (dirs ++ (before ++ [last])))) =
      below ++ [last] := by
  have hclean : ∀ s ∈ collapse (!front.isEmpty) (dirs ++ (before ++ [last])), '/' ∉ s := by
    intro s hs
    rcases List.mem_append.mp (mem_of_mem_collapse hs).1 with hmem | hmem
    · exact (h.clean s hmem).1
    · exact hslash s hmem
  obtain ⟨skips, hsegments, -⟩ := exists_segments_assemble h.lead hclean
  rw [hsegments, ← List.append_assoc dirs,
    collapse_append_kept (List.forall_mem_singleton.mpr hlast)]
  exact ⟨_, (List.append_assoc _ _ _).symm⟩

/-- The normal form of the path ends in the last name that is left. -/
theorem IsHome.exists_segments_late (h : IsHome base front dirs) {rest : List Char}
    {before : List (List Char)} (hnames : namesLeft (segments ('.' :: rest)) = before ++ [last]) :
    ∃ below, segments (Path.normal (joinChars base ('.' :: rest))) = below ++ [last] := by
  obtain ⟨ups, hleft, hkept⟩ := exists_namesLeft (segments ('.' :: rest))
  rw [hnames, ← List.append_assoc] at hleft
  have hlast : IsKept last := hkept last (by rw [hnames]; simp)
  rw [h.normal, ← collapse_append_collapse, hleft]
  refine h.exists_segments hlast fun s hs => ?_
  rw [← hleft] at hs
  exact slash_not_mem_of_mem_segments (mem_of_mem_collapse hs).1

/-- The keys of the candidates of the spelling with slashes. -/
theorem IsHome.keyChars_early (h : IsHome base front dirs) {rest ending : List Char}
    {below : List (List Char)}
    (hpath : segments (Path.normal (joinChars base (slashed ('.' :: rest)))) = below ++ [last])
    (hlast : IsKept last) (hending : ending ∈ quotedEndings) :
    keyChars (Path.normal (joinChars base (slashed ('.' :: rest))) ++ ending) =
      lowerChars (assemble front (collapse (!front.isEmpty) (dirs ++ leftEarly ('.' :: rest))) ++
        ending) := by
  have hself := h.slashed_early rest
  rw [keyChars_append_quotedEnding (hself.symm ▸ hpath) hlast hending, hself, normal_normal,
    h.early]

/-- The keys of the candidates of the path itself, if it ends in a name. -/
theorem IsHome.keyChars_late (h : IsHome base front dirs) {rest ending : List Char}
    {below more : List (List Char)} (hbegins : BeginsInName ('.' :: rest))
    (hpath : segments (Path.normal (joinChars base ('.' :: rest))) = below ++ [last])
    (hexpand : expand last = more ++ [name]) (hname : IsKept name)
    (hending : ending ∈ quotedEndings) :
    keyChars (Path.normal (joinChars base ('.' :: rest)) ++ ending) =
      lowerChars (assemble front (collapse (!front.isEmpty) (dirs ++ leftLate ('.' :: rest))) ++
        ending) := by
  rw [keyChars_append_quotedEnding (segments_slashed_concat hpath hexpand) hname hending,
    h.late hbegins]

theorem exists_expand_concat (segment : List Char) :
    ∃ more name, expand segment = more ++ [name] ∧ '/' ∉ name := by
  obtain ⟨more, name, hconcat⟩ :=
    (List.eq_nil_or_concat (expand segment)).resolve_left (segments_ne_nil _)
  rw [List.concat_eq_append] at hconcat
  refine ⟨more, name, hconcat, ?_⟩
  have hmem : name ∈ segments (slashed segment) := by
    show name ∈ expand segment
    rw [hconcat]
    simp
  exact slash_not_mem_of_mem_segments hmem

/-- The part of the last name behind its last backslash is kept, if the path ends in a
name there. -/
theorem EndsInName.isKept {before more : List (List Char)} (hends : EndsInName path)
    (hnames : namesLeft (segments path) = before ++ [last])
    (hexpand : expand last = more ++ [name]) : IsKept name := by
  obtain ⟨ups, hleft, hkept⟩ := exists_namesLeft (segments path)
  have hmem : last ∈ namesLeft (segments path) := by
    rw [hnames]
    simp
  by_cases hback : '\\' ∈ last
  · refine hends last ?_ hback name ?_
    · rw [hnames, List.getLast?_concat]
      rfl
    · rw [hexpand, List.getLast?_concat]
      rfl
  · have hslash : '/' ∉ last := by
      have hleftMem : last ∈ collapse false (segments path) := by
        rw [hleft]
        exact List.mem_append_right _ hmem
      exact slash_not_mem_of_mem_segments (mem_of_mem_collapse hleftMem).1
    rw [expand_of_no_backslash hslash hback] at hexpand
    have hend := congrArg List.getLast? hexpand
    rw [List.getLast?_singleton, List.getLast?_concat] at hend
    exact Option.some.inj hend ▸ hkept last hmem

/-! ## Where a specifier reads alike -/

/-- **Under every base the two spellings have candidates of the same keys.** -/
theorem IsHome.map_keyChars (h : IsHome base front dirs) {rest : List Char}
    (hreads : ReadsAlike ('.' :: rest)) :
    (quotedCandidates (Path.normal (joinChars base ('.' :: rest)))).map keyChars =
      (quotedCandidates (Path.normal (joinChars base (slashed ('.' :: rest))))).map keyChars := by
  have hsame := (sameEnded_left_iff hreads.begins).mp hreads.order
  obtain ⟨ups, hleft, hkept⟩ := exists_namesLeft (segments ('.' :: rest))
  rcases List.eq_nil_or_concat (namesLeft (segments ('.' :: rest))) with
    hnil | ⟨before, last, hnames⟩
  · -- nothing but climbs is left, which have no backslashes
    rw [hnil, List.append_nil] at hleft
    have hclimbs : IsSettled false (List.replicate ups dotDot) :=
      ⟨ups, [], (List.append_nil _).symm, List.forall_mem_nil _, fun h => by cases h⟩
    have hlate : leftLate ('.' :: rest) = List.replicate ups dotDot := by
      have hself : (List.replicate ups dotDot).flatMap expand = List.replicate ups dotDot := by
        refine flatMap_expand_eq_self fun s hs => ?_
        rw [List.eq_of_mem_replicate hs]
        decide
      unfold leftLate
      rw [hleft, hself, hclimbs.collapse]
    rw [hlate] at hsame
    rw [h.early, eq_climbs_of_sameEnded hsame, h.normal, ← collapse_append_collapse dirs, hleft]
  · rw [List.concat_eq_append] at hnames
    obtain ⟨below, hpath⟩ := h.exists_segments_late hnames
    obtain ⟨more, name, hexpand, -⟩ := exists_expand_concat last
    have hname := hreads.ends.isKept hnames hexpand
    -- what is left of the spelling with slashes ends in a name too
    obtain ⟨below', last', hearly, hlast'⟩ : ∃ below' last',
        segments (Path.normal (joinChars base (slashed ('.' :: rest)))) = below' ++ [last'] ∧
          IsKept last' := by
      have hlate : leftLate ('.' :: rest) =
          collapse false ((List.replicate ups dotDot ++ before).flatMap expand ++ more) ++
            [name] := by
        unfold leftLate
        rw [hleft, hnames, ← List.append_assoc, List.flatMap_append, List.flatMap_singleton,
          hexpand, ← List.append_assoc,
          collapse_append_kept (List.forall_mem_singleton.mpr hname)]
      rw [hlate] at hsame
      obtain ⟨before', last', hleftEarly, hlast', -⟩ := hsame.exists_kept hname isTidy_leftEarly
      have htidy : ∀ s ∈ before' ++ [last'], '/' ∉ s := by
        rw [← hleftEarly]
        exact fun s hs => (isTidy_leftEarly s hs).2.2
      obtain ⟨below', hbelow⟩ := h.exists_segments hlast' htidy
      exact ⟨below', last', by rw [h.early, hleftEarly, hbelow], hlast'⟩
    rw [quotedCandidates_eq hpath (hkept last (by rw [hnames]; simp)).1,
      quotedCandidates_eq hearly hlast'.1, List.map_map, List.map_map]
    refine List.map_congr_left fun ending hending => ?_
    rw [Function.comp_apply, Function.comp_apply,
      h.keyChars_late hreads.begins hpath hexpand hname hending,
      h.keyChars_early hearly hlast' hending]
    have htidy : ∀ parts, (∀ s ∈ parts, IsTidy s) →
        ∀ s ∈ collapse (!front.isEmpty) (dirs ++ parts), IsTidy s := by
      intro parts hparts
      refine isTidy_of_mem_collapse (List.forall_mem_append.mpr ⟨?_, ?_⟩)
      · exact fun s hs => (h.clean s hs).1
      · exact fun s hs => (hparts s hs).2.2
    exact (lowerChars_assemble_append_iff h.lead (htidy _ isTidy_leftLate)
      (htidy _ isTidy_leftEarly)).mpr
        (hsame.behind (isSettled_collapse false _) isTidy_leftEarly dirs) ending hending

end Resolve

end SourceAtlas
