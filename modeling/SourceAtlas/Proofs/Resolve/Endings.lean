/-
# SourceAtlas.Proofs.Resolve.Endings — candidates as endings of a path.

The candidates of an ECMAScript path that ends in a segment are the path with one of some endings
behind it (`quotedCandidates_eq`): nothing, an extension, or an index file behind a slash.  An
ending can be put behind a name before the path is collapsed or after
(`normal_append_quotedEnding`).

Two paths have candidates of one lower-case form exactly if their segments have, the last ones with
every extension too (`lowerChars_assemble_append_iff`): a capital sigma at the end of a segment is
lowered otherwise once an extension stands behind it.
-/
import SourceAtlas.Proofs.Path.Mixed
import SourceAtlas.Resolve

namespace SourceAtlas

namespace Resolve

open SourceAtlas.Path Text

variable {path last name front ending : List Char} {dirs parts others : List (List Char)}

/-! ## Endings -/

/-- What the candidates of an ECMAScript specifier have behind its path. -/
def quotedEndings : List (List Char) :=
  [] :: Language.ecmascriptExtensions.map String.toList
    ++ Language.ecmascriptExtensions.map fun ext => '/' :: (['i', 'n', 'd', 'e', 'x'] ++ ext.toList)

theorem isEnding_extension : ∀ ext ∈ Language.ecmascriptExtensions, IsEnding ext.toList := by
  decide

/-- An ending is nothing, an extension, or a name behind a slash. -/
theorem quotedEnding_cases (hending : ending ∈ quotedEndings) :
    ending = [] ∨ (∃ ext ∈ Language.ecmascriptExtensions, ext.toList = ending) ∨
      ∃ name, IsPlain name ∧ ending = '/' :: name := by
  have hindex : ∀ ext ∈ Language.ecmascriptExtensions,
      IsPlain (['i', 'n', 'd', 'e', 'x'] ++ ext.toList) := by decide
  unfold quotedEndings at hending
  rcases List.mem_append.mp hending with hending | hending
  · rcases List.mem_cons.mp hending with rfl | hending
    · exact Or.inl rfl
    · obtain ⟨ext, hext, rfl⟩ := List.mem_map.mp hending
      exact Or.inr (Or.inl ⟨ext, hext, rfl⟩)
  · obtain ⟨ext, hext, rfl⟩ := List.mem_map.mp hending
    exact Or.inr (Or.inr ⟨_, hindex ext hext, rfl⟩)

theorem nil_mem_quotedEndings : [] ∈ quotedEndings :=
  List.mem_cons_self

theorem extension_mem_quotedEndings {ext : String} (h : ext ∈ Language.ecmascriptExtensions) :
    ext.toList ∈ quotedEndings :=
  List.mem_append_left _ (List.mem_cons_of_mem _ (List.mem_map_of_mem h))

theorem slashed_quotedEnding (hending : ending ∈ quotedEndings) : slashed ending = ending := by
  have hall : ∀ ending ∈ quotedEndings, slashed ending = ending := by decide
  exact hall ending hending

/-- An ending is in lower case, whatever stands before it. -/
theorem exists_lowerChars_append (path : List Char) (hending : ending ∈ quotedEndings) :
    ∃ lead, lead.length = (lowerChars path).length ∧
      lowerChars (path ++ ending) = lead ++ ending := by
  have hself : ∀ ending ∈ quotedEndings, ∀ afterCased, lowerFrom afterCased ending = ending := by
    decide +kernel
  obtain ⟨after, hafter⟩ := exists_lowerFrom_append false path
  obtain ⟨lead, hlength, hlead⟩ := hafter ending
  exact ⟨lead, hlength, by rw [lowerChars, hlead, hself ending hending]⟩

theorem lowerChars_append_ne (hending : ending ∈ quotedEndings) (hne : ending ≠ []) :
    lowerChars (path ++ ending) ≠ lowerChars path := by
  obtain ⟨lead, hlength, hput⟩ := exists_lowerChars_append path hending
  intro heq
  have hlengths := congrArg List.length (hput.symm.trans heq)
  rw [List.length_append, hlength] at hlengths
  exact hne (List.length_eq_zero_iff.mp (Nat.left_eq_add.mp hlengths.symm))

/-- **Endings can be read back**: two paths that have the same lower-case forms with endings have
the same one with each of them. -/
theorem lowerChars_append_eq_of_iff {other : List Char}
    (h : ∀ key, (∃ ending ∈ quotedEndings, lowerChars (path ++ ending) = key) ↔
      ∃ ending ∈ quotedEndings, lowerChars (other ++ ending) = key) :
    ∀ ending ∈ quotedEndings, lowerChars (path ++ ending) = lowerChars (other ++ ending) := by
  -- neither path is longer than the other, so that the endings are of one length too
  have hle : ∀ {path other : List Char},
      (∃ ending ∈ quotedEndings, lowerChars (path ++ ending) = lowerChars other) →
        (lowerChars path).length ≤ (lowerChars other).length := by
    rintro path other ⟨ending, hending, heq⟩
    obtain ⟨lead, hlength, hput⟩ := exists_lowerChars_append path hending
    rw [← heq, hput, List.length_append, hlength]
    exact Nat.le_add_right _ _
  have hself : ∀ path : List Char,
      ∃ ending ∈ quotedEndings, lowerChars (path ++ ending) = lowerChars path :=
    fun path => ⟨[], nil_mem_quotedEndings, by rw [List.append_nil]⟩
  have hsame : (lowerChars path).length = (lowerChars other).length :=
    Nat.le_antisymm (hle ((h _).mpr (hself other))) (hle ((h _).mp (hself path)))
  intro ending hending
  obtain ⟨same, hmem, heq⟩ := (h _).mp ⟨ending, hending, rfl⟩
  obtain ⟨lead, hlead, hput⟩ := exists_lowerChars_append path hending
  obtain ⟨lead', hlead', hput'⟩ := exists_lowerChars_append other hmem
  have hendings : lead' ++ same = lead ++ ending := by rw [← hput', ← hput, heq]
  obtain ⟨-, rfl⟩ := List.append_inj hendings (by rw [hlead, hlead', hsame])
  exact heq.symm

/-! ## Candidates -/

/-- Behind a path that ends in a segment, what is joined to it stands behind a slash. -/
theorem joinChars_of_segments (hpath : segments path = dirs ++ [last]) (hlast : last ≠ [])
    (hrelative : isAbsolute name = false) : joinChars path name = path ++ '/' :: name := by
  have hne : path.isEmpty = false := by
    rw [List.isEmpty_eq_false_iff]
    rintro rfl
    have hone : [[]] = dirs ++ [last] := hpath
    have hend := congrArg List.getLast? hone
    rw [List.getLast?_concat] at hend
    exact hlast (Option.some.inj hend).symm
  have hslash : (path.getLast? == some '/') = false := by
    refine beq_eq_false_iff_ne.mpr fun hend => ?_
    obtain ⟨before, rfl⟩ := List.getLast?_eq_some_iff.mp hend
    have hsegments : segments (before ++ ['/']) = segments before ++ [[]] :=
      pieces_append rfl before []
    rw [hsegments] at hpath
    have hend := congrArg List.getLast? hpath
    rw [List.getLast?_concat, List.getLast?_concat] at hend
    exact hlast (Option.some.inj hend).symm
  unfold joinChars
  rw [hrelative, hne, hslash]
  rfl

/-- **The candidates of a path that ends in a segment** are the path with its endings. -/
theorem quotedCandidates_eq (hpath : segments path = dirs ++ [last]) (hlast : last ≠ []) :
    quotedCandidates path = quotedEndings.map (path ++ ·) := by
  have hindex : ∀ ext ∈ Language.ecmascriptExtensions,
      joinChars path (['i', 'n', 'd', 'e', 'x'] ++ ext.toList) =
        path ++ '/' :: (['i', 'n', 'd', 'e', 'x'] ++ ext.toList) :=
    fun _ _ => joinChars_of_segments hpath hlast rfl
  unfold quotedCandidates quotedEndings
  rw [List.map_congr_left hindex, List.map_append, List.map_cons, List.append_nil, List.map_map,
    List.map_map]
  rfl

/-- An ending can be put behind a name before the path is collapsed or after. -/
theorem normal_append_quotedEnding (hpath : segments path = dirs ++ [last]) (hlast : IsKept last)
    (hending : ending ∈ quotedEndings) : normal path ++ ending = normal (path ++ ending) := by
  rcases quotedEnding_cases hending with rfl | ⟨ext, hext, rfl⟩ | ⟨name, hname, rfl⟩
  · rw [List.append_nil, List.append_nil]
  · exact normal_append_ending hpath hlast (isEnding_extension ext hext)
  · exact normal_append_segment hpath hlast hname.isKept hname.2.2.2.1

/-- **The key of a candidate** whose path has a name behind its last separator. -/
theorem keyChars_append_quotedEnding (hslashed : segments (slashed path) = dirs ++ [name])
    (hname : IsKept name) (hending : ending ∈ quotedEndings) :
    keyChars (path ++ ending) = lowerChars (normal (slashed path) ++ ending) := by
  unfold keyChars
  rw [slashed_append, slashed_quotedEnding hending,
    normal_append_quotedEnding hslashed hname hending]

/-! ## Candidates of one lower-case form -/

theorem lowerChars_eq_dotDot {segment : List Char} :
    lowerChars segment = dotDot ↔ segment = dotDot :=
  lowerChars_eq_iff_of_dots (by simp [dotDot])

theorem isTidy_lowerChars {segment : List Char} (h : IsTidy segment) :
    IsTidy (lowerChars segment) := by
  obtain ⟨hne, hdot, hslash⟩ := h
  refine ⟨?_, ?_, slash_not_mem_lowerChars hslash⟩
  · exact fun heq => hne ((lowerChars_eq_iff_of_dots (List.forall_mem_nil _)).mp heq)
  · exact fun heq => hdot ((lowerChars_eq_iff_of_dots (by simp [dot])).mp heq)

theorem tidySegments_assemble (hfront : IsLead front) (hparts : ∀ s ∈ parts, IsTidy s) :
    tidySegments (assemble front parts) = parts := by
  rcases hfront with rfl | hfront
  · by_cases hne : parts = []
    · subst hne
      rfl
    · rw [assemble_of_ne_nil hne]
      exact tidySegments_joined hparts
  · have hassemble : assemble front parts = front ++ joined parts := by
      rcases hfront with rfl | rfl
      · rfl
      · rfl
    rw [hassemble, tidySegments_front hfront hparts]

/-- What is put together of tidy segments is of one lower-case form only if they are. -/
theorem map_lowerChars_of_assemble (hfront : IsLead front) (hparts : ∀ s ∈ parts, IsTidy s)
    (hothers : ∀ s ∈ others, IsTidy s)
    (h : lowerChars (assemble front parts) = lowerChars (assemble front others)) :
    parts.map lowerChars = others.map lowerChars := by
  have hlower : ∀ parts : List (List Char), (∀ s ∈ parts, IsTidy s) →
      ∀ s ∈ parts.map lowerChars, IsTidy s := by
    intro parts hparts s hs
    obtain ⟨segment, hsegment, rfl⟩ := List.mem_map.mp hs
    exact isTidy_lowerChars (hparts segment hsegment)
  rw [lowerChars_assemble hfront, lowerChars_assemble hfront] at h
  rw [← tidySegments_assemble hfront (hlower parts hparts), h,
    tidySegments_assemble hfront (hlower others hothers)]

theorem assemble_concat_append (parts : List (List Char)) (last ending : List Char) :
    assemble front (parts ++ [last]) ++ ending = assemble front (parts ++ [last ++ ending]) := by
  rw [assemble_of_ne_nil (by simp), assemble_of_ne_nil (by simp), List.append_assoc,
    joined_concat_append]

/-- **`SameEnded parts others`** — the segments have one lower-case form, and so have the last ones
with an extension behind them. -/
def SameEnded (parts others : List (List Char)) : Prop :=
  parts.map lowerChars = others.map lowerChars ∧
    ∀ ext ∈ Language.ecmascriptExtensions,
      parts.getLast?.map (fun s => lowerChars (s ++ ext.toList)) =
        others.getLast?.map fun s => lowerChars (s ++ ext.toList)

theorem SameEnded.of_concat {before before' : List (List Char)} {last last' : List Char}
    (hbefore : before.map lowerChars = before'.map lowerChars)
    (hlast : lowerChars last = lowerChars last')
    (hended : ∀ ext ∈ Language.ecmascriptExtensions,
      lowerChars (last ++ ext.toList) = lowerChars (last' ++ ext.toList)) :
    SameEnded (before ++ [last]) (before' ++ [last']) := by
  refine ⟨?_, fun ext hext => ?_⟩
  · rw [List.map_append, List.map_append, hbefore, List.map_singleton, List.map_singleton, hlast]
  · rw [List.getLast?_concat, List.getLast?_concat, Option.map_some, Option.map_some,
      hended ext hext]

/-- Segments are alike exactly if they are alike behind the same ones. -/
theorem sameEnded_append_iff (before : List (List Char)) :
    SameEnded (before ++ parts) (before ++ others) ↔ SameEnded parts others := by
  unfold SameEnded
  rw [List.map_append, List.map_append, List.append_right_inj]
  refine and_congr_right fun hmap => ?_
  rcases List.eq_nil_or_concat parts with rfl | ⟨between, last, rfl⟩
  · rw [List.map_eq_nil_iff.mp hmap.symm]
    exact iff_of_true (fun _ _ => rfl) fun _ _ => rfl
  · rcases List.eq_nil_or_concat others with rfl | ⟨between', last', rfl⟩
    · exact absurd (List.map_eq_nil_iff.mp hmap) (by simp)
    · simp only [List.concat_eq_append, ← List.append_assoc, List.getLast?_concat]

/-- Segments that are alike are none, or end alike. -/
theorem SameEnded.cases (h : SameEnded parts others) :
    (parts = [] ∧ others = []) ∨ ∃ before before' last last',
      parts = before ++ [last] ∧ others = before' ++ [last'] ∧
        before.map lowerChars = before'.map lowerChars ∧ lowerChars last = lowerChars last' ∧
        ∀ ext ∈ Language.ecmascriptExtensions,
          lowerChars (last ++ ext.toList) = lowerChars (last' ++ ext.toList) := by
  obtain ⟨hmap, hended⟩ := h
  rcases List.eq_nil_or_concat parts with rfl | ⟨before, last, rfl⟩
  · exact Or.inl ⟨rfl, List.map_eq_nil_iff.mp hmap.symm⟩
  · rw [List.concat_eq_append] at hmap hended
    rcases List.eq_nil_or_concat others with rfl | ⟨before', last', rfl⟩
    · rw [List.map_append, List.map_singleton] at hmap
      exact absurd hmap (by simp)
    · rw [List.concat_eq_append] at hmap hended
      simp only [List.getLast?_concat, Option.map_some, Option.some.injEq] at hended
      rw [List.map_append, List.map_append, List.map_singleton, List.map_singleton] at hmap
      obtain ⟨hbefore, hlast⟩ := List.append_inj' hmap rfl
      exact Or.inr ⟨before, before', last, last', List.concat_eq_append, List.concat_eq_append,
        hbefore, List.singleton_inj.mp hlast, hended⟩

/-- **Two paths have one lower-case form with every ending** exactly if their segments have. -/
theorem lowerChars_assemble_append_iff (hfront : IsLead front) (hparts : ∀ s ∈ parts, IsTidy s)
    (hothers : ∀ s ∈ others, IsTidy s) :
    (∀ ending ∈ quotedEndings, lowerChars (assemble front parts ++ ending) =
        lowerChars (assemble front others ++ ending)) ↔ SameEnded parts others := by
  constructor
  · intro h
    have hmap := map_lowerChars_of_assemble hfront hparts hothers
      (by simpa using h [] nil_mem_quotedEndings)
    refine ⟨hmap, fun ext hext => ?_⟩
    rcases List.eq_nil_or_concat parts with rfl | ⟨before, last, rfl⟩
    · rw [List.map_eq_nil_iff.mp hmap.symm]
    · rcases List.eq_nil_or_concat others with rfl | ⟨before', last', rfl⟩
      · exact absurd (List.map_eq_nil_iff.mp hmap) (by simp)
      · rw [List.concat_eq_append] at hparts hothers ⊢
        rw [List.concat_eq_append]
        -- the segments stay tidy with the extension behind the last one
        have htidy : ∀ before last, (∀ s ∈ before ++ [last], IsTidy s) →
            ∀ s ∈ before ++ [last ++ ext.toList], IsTidy s := by
          intro before last h
          obtain ⟨hbefore, hlast⟩ := List.forall_mem_append.mp h
          have hend := isEnding_extension ext hext
          have hkept : IsKept (last ++ ext.toList) := isKept_append_ending hend
          have hslash : '/' ∉ last ++ ext.toList := by
            rw [List.mem_append]
            exact not_or.mpr ⟨(List.forall_mem_singleton.mp hlast).2.2, hend.2.1⟩
          exact List.forall_mem_append.mpr
            ⟨hbefore, List.forall_mem_singleton.mpr ⟨hkept.1, hkept.2.1, hslash⟩⟩
        have hlower := h ext.toList (extension_mem_quotedEndings hext)
        rw [List.concat_eq_append, List.concat_eq_append, assemble_concat_append,
          assemble_concat_append] at hlower
        have hmaps := map_lowerChars_of_assemble hfront (htidy before last hparts)
          (htidy before' last' hothers) hlower
        rw [List.map_append, List.map_append, List.map_singleton, List.map_singleton] at hmaps
        obtain ⟨-, hlast⟩ := List.append_inj' hmaps rfl
        rw [List.getLast?_concat, List.getLast?_concat, Option.map_some, Option.map_some,
          List.singleton_inj.mp hlast]
  · intro h ending hending
    have hself : lowerChars (assemble front parts) = lowerChars (assemble front others) := by
      rw [lowerChars_assemble hfront, lowerChars_assemble hfront, h.1]
    rcases quotedEnding_cases hending with rfl | ⟨ext, hext, rfl⟩ | ⟨name, -, rfl⟩
    · rw [List.append_nil, List.append_nil, hself]
    · rcases h.cases with ⟨rfl, rfl⟩ | ⟨before, before', last, last', rfl, rfl, hbefore, -, hended⟩
      · rfl
      · rw [assemble_concat_append, assemble_concat_append, lowerChars_assemble hfront,
          lowerChars_assemble hfront, List.map_append, List.map_append, hbefore,
          List.map_singleton, List.map_singleton, hended ext hext]
    · rw [lowerChars_slash, lowerChars_slash, hself]

end Resolve

end SourceAtlas
