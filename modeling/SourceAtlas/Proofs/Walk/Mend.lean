/-
# SourceAtlas.Proofs.Walk.Mend — a walk does not see what is mended.

A fault hides an entry or what is below it, and the walk tells of it by a path without a size.
Mending the tree takes away these paths and no others: the files with their sizes stay, in the same
order.  So the walk of the mended tree comes to the same, the number of failures left out.
-/
import SourceAtlas.Proofs.FileSystem.Mend
import SourceAtlas.Walk

namespace SourceAtlas.Walk

open Entry

variable {blank : Content → Content}

/-! ## Files with sizes -/

theorem sizedFiles_append (a b : List Found) :
    sizedFiles (a ++ b) = sizedFiles a ++ sizedFiles b :=
  List.filterMap_append

theorem sizedFiles_failure (path : String) : sizedFiles [⟨path, none⟩] = [] := rfl

/-- An entry that cannot be examined yields no file. -/
theorem sizedFiles_hidden {entry : Entry} (h : entry.faults.examine = true) (lead : String) :
    sizedFiles (listEntry lead entry) = [] := by
  cases entry with
  | _ =>
      simp only [Entry.faults] at h
      simp [listEntry, sizedFiles, h]

mutual

theorem sizedFiles_mended (hsize : ∀ content, (blank content).size = content.size) (lead : String) :
    ∀ entry : Entry, entry.faults.examine = false →
      sizedFiles (listEntry lead (entry.mended blank)) = sizedFiles (listEntry lead entry)
  | .file name faults content, h => by
      have hexamine : faults.examine = false := h
      rw [mended, listEntry, listEntry, hexamine]
      show sizedFiles [⟨_, some (Content.size _)⟩] = sizedFiles [⟨_, some content.size⟩]
      split
      · rw [hsize]
      · rfl
  | .folder name faults entries, h => by
      have hexamine : faults.examine = false := h
      rw [mended, listEntry, listEntry, hexamine]
      cases faults.list with
      | true =>
          show sizedFiles (listAll (lead ++ name ++ "/") []) = sizedFiles [⟨lead ++ name, none⟩]
          rw [listAll, sizedFiles_failure]
          rfl
      | false => exact sizedFiles_mendedAll hsize (lead ++ name ++ "/") entries
  | .link name faults target, h => by
      have hexamine : faults.examine = false := h
      rw [mended, listEntry, listEntry, hexamine]
      rfl
  | .special name faults, h => by
      have hexamine : faults.examine = false := h
      rw [mended, listEntry, listEntry, hexamine]
      rfl

theorem sizedFiles_mendedAll (hsize : ∀ content, (blank content).size = content.size)
    (lead : String) :
    ∀ entries : List Entry,
      sizedFiles (listAll lead (mendedAll blank entries)) = sizedFiles (listAll lead entries)
  | [] => by rw [mendedAll]
  | entry :: rest => by
      rw [listAll, sizedFiles_append, ← sizedFiles_mendedAll hsize lead rest]
      cases hexamine : entry.faults.examine with
      | true => rw [mendedAll_cons_hidden hexamine, sizedFiles_hidden hexamine, List.nil_append]
      | false =>
          rw [mendedAll_cons hexamine, listAll, sizedFiles_append,
            sizedFiles_mended hsize lead entry hexamine]

end

/-- **Mending a tree keeps its files with their sizes, in the same order.** -/
theorem sizedFiles_listing_mended (hsize : ∀ content, (blank content).size = content.size)
    (root : Entry) :
    sizedFiles (listing (root.mended blank)) = sizedFiles (listing root) := by
  unfold listing
  rw [faults_mended, ordered_mended, entries_mended, faults_ordered]
  show sizedFiles (listAll "" _) = _
  split
  · rw [listAll, sizedFiles_failure]
    rfl
  · exact sizedFiles_mendedAll hsize "" root.ordered.entries

/-! ## Sorting out -/

variable {folders extensions : List String} {found found' : List Found} {cancelled : Bool}

/-- What files come to depends on their sizes alone, the number of failures left out. -/
theorem classify_congr (h : sizedFiles found' = sizedFiles found) :
    classify folders extensions found' cancelled =
      { classify folders extensions found cancelled with
        skipped := (classify folders extensions found' cancelled).skipped } := by
  unfold classify
  rw [h]

end SourceAtlas.Walk
