/-
# SourceAtlas.Proofs.Walk.Tracked — the tracked files of a walk.

Sorting out a listing drops failures, excluded paths and inactive extensions and keeps the order of
what is left.  So no file is tracked twice, and the path of each tracked file leads to a file of the
tree.  A walk under a signal yields some of the listing (`listingUnder_sublist`), so that this holds
of a walk that is cut short as well (`exists_reaches_of_mem_files`).
-/
import SourceAtlas.Proofs.Walk.Trail

namespace SourceAtlas.Walk

variable {folders extensions : List String} {found : List Found} {cancelled : Bool}

theorem mem_sizedFiles {path : String} {size : Nat} :
    (path, size) ∈ sizedFiles found ↔ ⟨path, some size⟩ ∈ found := by
  unfold sizedFiles
  rw [List.mem_filterMap]
  constructor
  · rintro ⟨⟨foundPath, foundSize⟩, hmem, heq⟩
    obtain ⟨s, hs, hpair⟩ := Option.map_eq_some_iff.mp heq
    cases hpair
    have hsize : foundSize = some size := hs
    rw [← hsize]
    exact hmem
  · intro h
    exact ⟨⟨path, some size⟩, h, rfl⟩

theorem map_fst_sizedFiles_sublist (found : List Found) :
    ((sizedFiles found).map Prod.fst).Sublist (found.map (·.path)) := by
  unfold sizedFiles
  induction found with
  | nil => exact List.Sublist.refl _
  | cons first rest ih =>
      obtain ⟨path, size⟩ := first
      cases size with
      | none => exact ih.cons path
      | some size => exact ih.cons_cons path

/-- Tracked files are listed files, in the same order. -/
theorem map_path_tracked_sublist (folders extensions : List String) (found : List Found)
    (cancelled : Bool) :
    ((classify folders extensions found cancelled).tracked.map (·.path)).Sublist
      (found.map (·.path)) := by
  let kept := (sizedFiles found).filter fun file => !isExcluded folders file.1
  have hkept : ((kept.map trackedFile).map (·.path)).Sublist (found.map (·.path)) := by
    rw [List.map_map]
    exact ((List.filter_sublist).map Prod.fst).trans (map_fst_sizedFiles_sublist found)
  exact ((List.filter_sublist).map _).trans hkept

/-- A tracked file is listed with its size. -/
theorem exists_mem_of_mem_tracked {file : TrackedFile}
    (h : file ∈ (classify folders extensions found cancelled).tracked) :
    ∃ size, ⟨file.path, some size⟩ ∈ found ∧ file = trackedFile (file.path, size) := by
  obtain ⟨hfile, -⟩ := List.mem_filter.mp h
  obtain ⟨⟨path, size⟩, hkept, rfl⟩ := List.mem_map.mp hfile
  exact ⟨size, mem_sizedFiles.mp (List.mem_filter.mp hkept).1, rfl⟩

variable {root : Entry}

/-- **No file is tracked twice.** -/
theorem nodup_tracked (h : root.WellFormed) :
    ((classify folders extensions (listing root) cancelled).tracked.map (·.path)).Nodup :=
  (map_path_tracked_sublist folders extensions (listing root) cancelled).nodup (nodup_listing h)

/-- **The path of a tracked file leads to a file.** -/
theorem exists_reaches_of_mem_tracked (h : root.WellFormed) {file : TrackedFile}
    (hfile : file ∈ (classify folders extensions (listing root) cancelled).tracked) :
    ∃ name faults content,
      root.Reaches (Text.splitAt '/' file.path) (.file name faults content) := by
  obtain ⟨size, hfound, -⟩ := exists_mem_of_mem_tracked hfile
  obtain ⟨name, faults, content, hreaches, -⟩ := exists_reaches_of_mem_listing h hfound rfl
  exact ⟨name, faults, content, hreaches⟩

/-! ## Under a signal -/

mutual

/-- Under a signal an entry yields some of what it yields without. -/
theorem walkEntry_sublist (lead : String) : ∀ (entry : Entry) (signal : Signal),
    (walkEntry lead entry signal).1.Sublist (listEntry lead entry)
  | .file name faults content, signal => by
      rw [walkEntry, listEntry]
  | .folder name faults entries, signal => by
      rw [walkEntry, listEntry]
      split
      · exact List.Sublist.refl _
      · exact walkAll_sublist (lead ++ name ++ "/") entries signal
  | .link name faults target, signal => by
      rw [walkEntry, listEntry]
  | .special name faults, signal => by
      rw [walkEntry, listEntry]

theorem walkAll_sublist (lead : String) : ∀ (entries : List Entry) (signal : Signal),
    (walkAll lead entries signal).1.Sublist (listAll lead entries)
  | [], signal => by
      rw [walkAll]
      exact List.nil_sublist _
  | entry :: rest, signal => by
      rw [walkAll, listAll]
      split
      · exact List.nil_sublist _
      · exact (walkEntry_sublist lead entry _).append (walkAll_sublist lead rest _)

end

theorem listingUnder_sublist (signal : Signal) (root : Entry) :
    (listingUnder signal root).1.Sublist (listing root) := by
  unfold listingUnder listing
  split
  · exact List.Sublist.refl _
  · exact walkAll_sublist "" root.ordered.entries signal

/-- **The path of a file that is tracked under a signal leads to a file.** -/
theorem exists_reaches_of_mem_files (h : root.WellFormed) {signal : Signal} {file : TrackedFile}
    (hfile : file ∈ (files folders extensions signal root).1.tracked) :
    ∃ name faults content,
      root.Reaches (Text.splitAt '/' file.path) (.file name faults content) := by
  obtain ⟨size, hfound, -⟩ := exists_mem_of_mem_tracked hfile
  obtain ⟨name, faults, content, hreaches, -⟩ :=
    exists_reaches_of_mem_listing h ((listingUnder_sublist signal root).subset hfound) rfl
  exact ⟨name, faults, content, hreaches⟩

end SourceAtlas.Walk
