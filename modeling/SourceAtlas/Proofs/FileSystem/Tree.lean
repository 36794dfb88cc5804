/-
# SourceAtlas.Proofs.FileSystem.Tree — what can be reached in a tree.

In a well-formed tree the names of a folder are distinct and hold no slash, so that names lead to
one entry at most.  An entry is reached by names if every folder on the way can be listed and every
entry on the way, itself included, can be examined (`Reaches`); links are no folders and are not
followed.  Putting the entries of folders in order changes neither what is reached nor whether a
tree is well formed.
-/
import SourceAtlas.FileSystem.Entry
import SourceAtlas.Proofs.Keyed

namespace SourceAtlas.Entry

/-! ## Well-formed trees -/

/-- **`WellFormed tree`** — names are distinct within each folder and hold no slash. -/
inductive WellFormed : Entry → Prop
  | file (name : String) (faults : Faults) (content : Content) :
      WellFormed (.file name faults content)
  | link (name : String) (faults : Faults) (target : String) : WellFormed (.link name faults target)
  | special (name : String) (faults : Faults) : WellFormed (.special name faults)
  | folder (name : String) (faults : Faults) {entries : List Entry}
      (distinct : (entries.map Entry.name).Nodup)
      (named : ∀ entry ∈ entries, '/' ∉ entry.name.toList)
      (inner : ∀ entry ∈ entries, WellFormed entry) : WellFormed (.folder name faults entries)

/-! ## Reaching entries -/

/-- **`Reaches tree names entry`** — names lead from a tree to an entry, through folders that can be
listed to entries that can be examined. -/
inductive Reaches : Entry → List String → Entry → Prop
  | here (entry : Entry) : Reaches entry [] entry
  | inside (name : String) {faults : Faults} {entries : List Entry} {child : Entry}
      {names : List String} {entry : Entry} (listable : faults.list = false)
      (member : child ∈ entries) (examinable : child.faults.examine = false)
      (further : Reaches child names entry) :
      Reaches (.folder name faults entries) (child.name :: names) entry

/-- **What is reached by names is what they lead to.** -/
theorem at?_of_reaches {tree entry : Entry} {names : List String} (h : Reaches tree names entry)
    (hformed : WellFormed tree) : tree.at? names = some entry := by
  induction h with
  | here entry => rfl
  | inside name listable member examinable further ih =>
      cases hformed with
      | folder _ _ distinct named inner =>
          simp only [at?, Entry.entries, find?_of_nodup distinct member]
          exact ih (inner _ member)

/-! ## Order -/

variable {entry : Entry} {entries : List Entry}

theorem mem_insertOrdered {x : Entry} :
    x ∈ insertOrdered entry entries ↔ x = entry ∨ x ∈ entries := by
  induction entries with
  | nil => exact List.mem_singleton.trans (or_iff_left List.not_mem_nil).symm
  | cons other rest ih =>
      rw [insertOrdered]
      split
      · exact List.mem_cons
      · rw [List.mem_cons, ih, List.mem_cons, or_left_comm]

theorem perm_insertOrdered (entry : Entry) (entries : List Entry) :
    (insertOrdered entry entries).Perm (entry :: entries) := by
  induction entries with
  | nil => exact List.Perm.refl _
  | cons other rest ih =>
      rw [insertOrdered]
      split
      · exact List.Perm.refl _
      · exact (ih.cons other).trans (List.Perm.swap entry other rest)

/-- Entries are in order of their names. -/
def InOrder (entries : List Entry) : Prop :=
  entries.Pairwise (·.name ≤ ·.name)

theorem inOrder_insertOrdered (h : InOrder entries) : InOrder (insertOrdered entry entries) := by
  induction entries with
  | nil => exact List.pairwise_singleton _ _
  | cons other rest ih =>
      obtain ⟨hfirst, hrest⟩ := List.pairwise_cons.mp h
      rw [insertOrdered]
      split
      · rename_i hle
        refine List.pairwise_cons.mpr ⟨?_, h⟩
        intro x hx
        rcases List.mem_cons.mp hx with rfl | hx
        · exact hle
        · exact String.le_trans hle (hfirst x hx)
      · rename_i hnot
        have hle := (String.le_total entry.name other.name).resolve_left hnot
        refine List.pairwise_cons.mpr ⟨?_, ih hrest⟩
        intro x hx
        rcases mem_insertOrdered.mp hx with rfl | hx
        · exact hle
        · exact hfirst x hx

/-- An entry that comes before all others is put in front of them. -/
theorem insertOrdered_of_le (h : ∀ x ∈ entries, entry.name ≤ x.name) :
    insertOrdered entry entries = entry :: entries := by
  cases entries with
  | nil => rfl
  | cons other rest => rw [insertOrdered, if_pos (h other List.mem_cons_self)]

@[simp] theorem name_ordered (entry : Entry) : (ordered entry).name = entry.name := by
  cases entry with
  | folder name faults entries =>
      rw [ordered]
      rfl
  | _ => rw [ordered]

@[simp] theorem faults_ordered (entry : Entry) : (ordered entry).faults = entry.faults := by
  cases entry with
  | folder name faults entries =>
      rw [ordered]
      rfl
  | _ => rw [ordered]

theorem inOrder_orderedAll (entries : List Entry) : InOrder (orderedAll entries) := by
  induction entries with
  | nil =>
      rw [orderedAll]
      exact List.Pairwise.nil
  | cons entry rest ih =>
      rw [orderedAll]
      exact inOrder_insertOrdered ih

/-- Putting entries in order only moves them. -/
theorem perm_orderedAll (entries : List Entry) :
    (orderedAll entries).Perm (entries.map ordered) := by
  induction entries with
  | nil =>
      rw [orderedAll]
      exact List.Perm.refl _
  | cons entry rest ih =>
      rw [orderedAll]
      exact (perm_insertOrdered _ _).trans (ih.cons _)

theorem mem_orderedAll {x : Entry} :
    x ∈ orderedAll entries ↔ ∃ entry ∈ entries, ordered entry = x := by
  rw [(perm_orderedAll entries).mem_iff, List.mem_map]

/-- A tree stays well formed when it is put in order. -/
theorem WellFormed.ordered {tree : Entry} (h : WellFormed tree) : WellFormed tree.ordered := by
  induction h with
  | file name faults content =>
      rw [Entry.ordered]
      exact WellFormed.file name faults content
  | link name faults target =>
      rw [Entry.ordered]
      exact WellFormed.link name faults target
  | special name faults =>
      rw [Entry.ordered]
      exact WellFormed.special name faults
  | @folder name faults entries distinct named inner ih =>
      rw [Entry.ordered]
      refine WellFormed.folder name faults ?_ ?_ ?_
      · rw [((perm_orderedAll entries).map Entry.name).nodup_iff, List.map_map]
        have hname : Entry.name ∘ Entry.ordered = Entry.name := funext name_ordered
        rw [hname]
        exact distinct
      · intro x hx
        obtain ⟨entry, hentry, rfl⟩ := mem_orderedAll.mp hx
        rw [name_ordered]
        exact named entry hentry
      · intro x hx
        obtain ⟨entry, hentry, rfl⟩ := mem_orderedAll.mp hx
        exact ih entry hentry

/-- What is reached in an ordered tree is reached in the tree. -/
theorem exists_reaches_of_ordered {tree leaf : Entry} {names : List String}
    (h : Reaches tree.ordered names leaf) :
    ∃ entry, Reaches tree names entry ∧ entry.ordered = leaf := by
  -- the induction is on the way through the ordered tree, and the tree follows it
  generalize hordered : tree.ordered = start at h
  induction h generalizing tree with
  | here entry => exact ⟨tree, Reaches.here tree, hordered⟩
  | inside name listable member examinable further ih =>
      cases tree with
      | folder name' faults' entries' =>
          rw [ordered] at hordered
          cases hordered
          obtain ⟨child, hchild, rfl⟩ := mem_orderedAll.mp member
          obtain ⟨entry, hentry, hleaf⟩ := ih rfl
          rw [faults_ordered] at examinable
          rw [name_ordered]
          exact ⟨entry, Reaches.inside name listable hchild examinable hentry, hleaf⟩
      | _ =>
          rw [ordered] at hordered
          cases hordered

end SourceAtlas.Entry
