/-
# SourceAtlas.Proofs.Path.Suffix — how a path with a known extension ends.

The suffix of a path is the end of its last segment, and a path ends as its suffix does.  Nothing
that is lowered to an extension of the tables can end in a blank or in a parenthesis, because those
characters are their own lower-case forms (`sealed_of_extension`).
-/
import SourceAtlas.Proofs.Extract.Quoted
import SourceAtlas.Proofs.Path.Tidy
import SourceAtlas.Proofs.Text.Class
import SourceAtlas.TrackedFile

namespace SourceAtlas.Path

open Text

/-- The name of a plain path is its last segment. -/
theorem nameChars_of_plain {path name : List Char} {dirs : List (List Char)}
    (hsegments : segments path = dirs ++ [name]) (h : ∀ s ∈ segments path, IsPlain s) :
    nameChars path = name := by
  unfold nameChars
  rw [tidySegments_eq_segments fun s hs => (h s hs).isTidy, hsegments, List.getLastD_concat]

/-- A path ends in its last segment. -/
theorem exists_append_of_segments {path name : List Char} {dirs : List (List Char)}
    (hsegments : segments path = dirs ++ [name]) : ∃ lead, path = lead ++ name := by
  have h := joined_concat_append dirs [] name
  rw [List.nil_append, ← hsegments, joined_segments] at h
  exact ⟨_, h.symm⟩

/-- A name with a suffix ends as its suffix does. -/
theorem exists_last_of_suffix {name : List Char} (h : suffixOfName name ≠ []) :
    ∃ before lead c, name = before ++ [c] ∧ suffixOfName name = lead ++ [c] := by
  rcases List.eq_nil_or_concat name with rfl | ⟨before, c, rfl⟩
  · exact absurd rfl h
  · rw [List.concat_eq_append] at h ⊢
    unfold suffixOfName at h ⊢
    rw [List.reverse_concat] at h ⊢
    by_cases hc : c = '.'
    · subst hc
      exact absurd rfl h
    · rw [List.takeWhile_cons_of_pos (by simpa using hc), List.reverse_cons] at h ⊢
      simp only at h ⊢
      split at h
      · exact absurd rfl h
      · rename_i hshort
        rw [if_neg hshort]
        exact ⟨before, '.' :: (before.reverse.takeWhile (· != '.')).reverse, c, rfl, rfl⟩

/-- **A file of an ECMAScript extension has a sealed path.** -/
theorem sealed_of_extension {path : String} (h : ∀ s ∈ segments path.toList, IsPlain s)
    (hextension : TrackedFile.extensionOf path ∈ Language.ecmascriptExtensions) :
    Extract.QuotedForm.Sealed path.toList := by
  obtain ⟨dirs, name, hsegments⟩ := exists_segments_concat path.toList
  -- the lower-case suffix ends in one of two letters
  have hlower : (lowerChars (suffixOfName name)).getLast? ∈ [some 's', some 'x'] := by
    unfold TrackedFile.extensionOf lower suffix at hextension
    rw [String.toList_ofList, nameChars_of_plain hsegments h] at hextension
    have htable : ∀ e ∈ Language.ecmascriptExtensions,
        e.toList.getLast? ∈ [some 's', some 'x'] := by decide
    have hlast := htable _ hextension
    rwa [String.toList_ofList] at hlast
  have hsuffix : suffixOfName name ≠ [] := by
    intro hnil
    rw [hnil] at hlower
    exact absurd hlower (by decide)
  obtain ⟨before, lead, c, hname, hend⟩ := exists_last_of_suffix hsuffix
  obtain ⟨front, hpath⟩ := exists_append_of_segments hsegments
  rw [hend] at hlower
  refine ⟨front ++ before, c, ?_, ?_, ?_⟩
  · rw [hpath, hname, List.append_assoc]
  · rw [← Bool.not_eq_true]
    intro hblank
    rw [getLast?_lowerChars fun after => lowerBetween_of_isBlank hblank after []] at hlower
    rcases List.mem_cons.mp hlower with heq | heq
    · rw [Option.some.inj heq] at hblank
      exact absurd hblank (by decide)
    · rw [Option.some.inj (List.mem_singleton.mp heq)] at hblank
      exact absurd hblank (by decide)
  · intro hparen
    rw [hparen, getLast?_lowerChars fun after => rfl] at hlower
    exact absurd hlower (by decide)

end SourceAtlas.Path
