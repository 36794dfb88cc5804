/-
# SourceAtlas.Proofs.Path.Tidy — paths by their tidy segments.

The tidy segments of a path are those that are neither empty nor `.`.  Paths that are put together
add theirs (`tidySegments_append`, `tidySegments_joinChars`), and segments of this kind are the tidy
segments of the path that they make up (`tidySegments_joined`).  The tidy form has the same segments
and the same slashes in front, so that tidying it again changes nothing (`tidy_tidy`).
-/
import SourceAtlas.Proofs.Path.Normal

namespace SourceAtlas.Path

variable {base path segment : List Char} {parts : List (List Char)}

/-! ## Tidy segments -/

/-- **`IsTidy segment`** — the tidy form of a path keeps the segment. -/
def IsTidy (segment : List Char) : Prop :=
  segment ≠ [] ∧ segment ≠ dot ∧ '/' ∉ segment

theorem IsPlain.isTidy (h : IsPlain segment) : IsTidy segment :=
  ⟨h.1, h.2.1, h.2.2.2.1⟩

theorem isTidy_of_mem_tidySegments (h : segment ∈ tidySegments path) : IsTidy segment := by
  obtain ⟨hsegment, hkept⟩ := List.mem_filter.mp h
  rw [Bool.and_eq_true, Bool.not_eq_true', bne_iff_ne, List.isEmpty_eq_false_iff] at hkept
  exact ⟨hkept.1, hkept.2, slash_not_mem_of_mem_segments hsegment⟩

theorem tidySegments_append (first rest : List Char) :
    tidySegments (first ++ '/' :: rest) = tidySegments first ++ tidySegments rest := by
  unfold tidySegments segments
  rw [Text.pieces_append rfl, List.filter_append]

theorem tidySegments_joinChars (hrelative : isAbsolute path = false) :
    tidySegments (joinChars base path) = tidySegments base ++ tidySegments path := by
  unfold joinChars
  rw [hrelative, if_neg Bool.false_ne_true]
  rcases List.eq_nil_or_concat base with rfl | ⟨body, last, rfl⟩
  · rfl
  · by_cases hlast : last = '/'
    · -- a slash at the end has nothing behind it
      have hnothing : tidySegments [] = [] := rfl
      subst hlast
      rw [if_pos (by simp), List.concat_eq_append, List.append_assoc, List.singleton_append,
        tidySegments_append, tidySegments_append, hnothing, List.append_nil]
    · rw [if_neg (by simpa using hlast), tidySegments_append]

theorem tidySegments_eq_segments (h : ∀ s ∈ segments path, IsTidy s) :
    tidySegments path = segments path := by
  unfold tidySegments
  rw [List.filter_eq_self]
  intro s hs
  obtain ⟨hne, hdot, -⟩ := h s hs
  simp [hne, hdot]

theorem tidySegments_joined (h : ∀ s ∈ parts, IsTidy s) : tidySegments (joined parts) = parts := by
  by_cases hparts : parts = []
  · subst hparts
    rfl
  · have hsegments := segments_joined hparts fun s hs => (h s hs).2.2
    rw [tidySegments_eq_segments (by rwa [hsegments]), hsegments]

theorem tidySegments_front {front : List Char} (hfront : IsFront front) (h : ∀ s ∈ parts, IsTidy s) :
    tidySegments (front ++ joined parts) = parts := by
  have hslash : ∀ rest, tidySegments ('/' :: rest) = tidySegments rest :=
    tidySegments_append []
  rcases hfront with rfl | rfl
  · rw [List.singleton_append, hslash, tidySegments_joined h]
  · rw [List.cons_append, List.singleton_append, hslash, hslash, tidySegments_joined h]

theorem head?_joined_tidy (h : ∀ s ∈ parts, IsTidy s) : (joined parts).head? ≠ some '/' :=
  head?_joined_ne_slash (fun s hs => (h s hs).2.2) fun hhead => (h [] (List.mem_of_head? hhead)).1 rfl

/-! ## The tidy form -/

theorem tidy_absolute (h : isAbsolute path = true) :
    tidy path = anchor path ++ joined (tidySegments path) := by
  unfold tidy assemble
  rcases isFront_anchor h with hanchor | hanchor
  · rw [hanchor]
    rfl
  · rw [hanchor]
    rfl

theorem tidy_relative (h : isAbsolute path = false) :
    tidy path = if (tidySegments path).isEmpty then dot else joined (tidySegments path) := by
  have hanchor : anchor path = [] := anchor_relative (beq_eq_false_iff_ne.mp h)
  unfold tidy assemble
  rw [hanchor]
  rfl

theorem tidySegments_tidy (path : List Char) : tidySegments (tidy path) = tidySegments path := by
  have htidy : ∀ s ∈ tidySegments path, IsTidy s := fun s hs => isTidy_of_mem_tidySegments hs
  cases habsolute : isAbsolute path with
  | true => rw [tidy_absolute habsolute, tidySegments_front (isFront_anchor habsolute) htidy]
  | false =>
      rw [tidy_relative habsolute]
      split
      · rename_i hempty
        rw [List.isEmpty_iff.mp hempty]
        rfl
      · exact tidySegments_joined htidy

theorem isAbsolute_tidy (path : List Char) : isAbsolute (tidy path) = isAbsolute path := by
  cases habsolute : isAbsolute path with
  | true => rw [tidy_absolute habsolute, isAbsolute_front (isFront_anchor habsolute)]
  | false =>
      rw [tidy_relative habsolute]
      split
      · rfl
      · exact beq_eq_false_iff_ne.mpr
          (head?_joined_tidy fun s hs => isTidy_of_mem_tidySegments hs)

/-- **The tidy form is tidy.** -/
theorem tidy_tidy (path : List Char) : tidy (tidy path) = tidy path := by
  cases habsolute : isAbsolute path with
  | true =>
      have hanchor : anchor (tidy path) = anchor path := by
        rw [tidy_absolute habsolute]
        exact anchor_front (isFront_anchor habsolute)
          (head?_joined_tidy fun s hs => isTidy_of_mem_tidySegments hs)
      rw [tidy_absolute ((isAbsolute_tidy path).trans habsolute), hanchor, tidySegments_tidy,
        tidy_absolute habsolute]
  | false =>
      rw [tidy_relative ((isAbsolute_tidy path).trans habsolute), tidySegments_tidy,
        tidy_relative habsolute]

theorem tidied_tidied (path : String) : tidied (tidied path) = tidied path := by
  unfold tidied
  rw [String.toList_ofList, tidy_tidy]

end SourceAtlas.Path
