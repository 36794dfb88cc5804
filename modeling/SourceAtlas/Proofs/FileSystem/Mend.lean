/-
# SourceAtlas.Proofs.FileSystem.Mend — a tree with its faults taken out.

A tree is mended by giving up what its faults hide and nothing else: an entry that cannot be
examined is taken away with all below it, a folder that cannot be listed is emptied, and a file that
cannot be read or is read without end gets another content.  The mended tree is free of faults and
as well formed as the tree was, it can be put in order before or after it is mended, and all that is
reached in the tree is still reached, mended.
-/
import SourceAtlas.Proofs.FileSystem.Tree

namespace SourceAtlas.Entry

variable {blank : Content → Content}

/-! ## Mending -/

mutual

/-- The entry without faults; `blank` is the content that a file gets whose own cannot be read. -/
def mended (blank : Content → Content) : Entry → Entry
  | .file name faults content =>
    .file name Faults.none (if faults.read || faults.hang then blank content else content)
  | .folder name faults entries =>
    .folder name Faults.none (if faults.list then [] else mendedAll blank entries)
  | .link name _ target => .link name Faults.none target
  | .special name _ => .special name Faults.none

/-- The entries that can be examined, without faults. -/
def mendedAll (blank : Content → Content) : List Entry → List Entry
  | [] => []
  | entry :: rest =>
    if entry.faults.examine then mendedAll blank rest
    else mended blank entry :: mendedAll blank rest

end

theorem mendedAll_cons_hidden {entry : Entry} (h : entry.faults.examine = true)
    (rest : List Entry) : mendedAll blank (entry :: rest) = mendedAll blank rest := by
  rw [mendedAll, if_pos h]

theorem mendedAll_cons {entry : Entry} (h : entry.faults.examine = false) (rest : List Entry) :
    mendedAll blank (entry :: rest) = mended blank entry :: mendedAll blank rest := by
  rw [mendedAll, h]
  rfl

@[simp] theorem name_mended (entry : Entry) : (mended blank entry).name = entry.name := by
  cases entry with
  | _ =>
      rw [mended]
      rfl

@[simp] theorem faults_mended (entry : Entry) : (mended blank entry).faults = Faults.none := by
  cases entry with
  | _ =>
      rw [mended]
      rfl

theorem entries_mended (entry : Entry) :
    (mended blank entry).entries =
      if entry.faults.list then [] else mendedAll blank entry.entries := by
  cases entry with
  | folder name faults entries =>
      rw [mended]
      rfl
  | _ =>
      rw [mended]
      exact (ite_self []).symm

theorem mem_mendedAll {entries : List Entry} {x : Entry} :
    x ∈ mendedAll blank entries ↔
      ∃ entry ∈ entries, entry.faults.examine = false ∧ mended blank entry = x := by
  induction entries with
  | nil =>
      rw [mendedAll]
      simp
  | cons entry rest ih =>
      cases hexamine : entry.faults.examine with
      | true =>
          rw [mendedAll_cons_hidden hexamine, ih]
          simp [hexamine]
      | false =>
          rw [mendedAll_cons hexamine, List.mem_cons, ih]
          simp only [List.mem_cons, exists_eq_or_imp, hexamine, true_and]
          exact or_congr_left eq_comm

/-- Mending keeps the order of names and makes none twice. -/
theorem map_name_mendedAll_sublist (entries : List Entry) :
    ((mendedAll blank entries).map Entry.name).Sublist (entries.map Entry.name) := by
  induction entries with
  | nil =>
      rw [mendedAll]
  | cons entry rest ih =>
      cases hexamine : entry.faults.examine with
      | true =>
          rw [mendedAll_cons_hidden hexamine]
          exact ih.cons entry.name
      | false =>
          rw [mendedAll_cons hexamine, List.map_cons, name_mended]
          exact ih.cons_cons entry.name

/-! ## What mending keeps -/

/-- **`FaultFree tree`** — nothing fails about any entry of a tree. -/
inductive FaultFree : Entry → Prop
  | file (name : String) (content : Content) : FaultFree (.file name Faults.none content)
  | link (name : String) (target : String) : FaultFree (.link name Faults.none target)
  | special (name : String) : FaultFree (.special name Faults.none)
  | folder (name : String) {entries : List Entry} (inner : ∀ entry ∈ entries, FaultFree entry) :
      FaultFree (.folder name Faults.none entries)

/-- What is reached in a tree without faults has none. -/
theorem Reaches.faultFree {tree entry : Entry} {names : List String} (h : Reaches tree names entry)
    (hfree : FaultFree tree) : FaultFree entry := by
  induction h with
  | here entry => exact hfree
  | inside name listable member examinable further ih =>
      cases hfree with
      | folder _ inner => exact ih (inner _ member)

mutual

/-- **A mended tree is free of faults.** -/
theorem faultFree_mended : ∀ tree : Entry, FaultFree (mended blank tree)
  | .file name faults content => by
      rw [mended]
      exact FaultFree.file name _
  | .link name faults target => by
      rw [mended]
      exact FaultFree.link name target
  | .special name faults => by
      rw [mended]
      exact FaultFree.special name
  | .folder name faults entries => by
      rw [mended]
      refine FaultFree.folder name ?_
      split
      · intro x hx
        cases hx
      · exact faultFree_mendedAll entries

theorem faultFree_mendedAll :
    ∀ entries : List Entry, ∀ x ∈ mendedAll blank entries, FaultFree x
  | [], x, hx => by
      rw [mendedAll] at hx
      cases hx
  | entry :: rest, x, hx => by
      cases hexamine : entry.faults.examine with
      | true =>
          rw [mendedAll_cons_hidden hexamine] at hx
          exact faultFree_mendedAll rest x hx
      | false =>
          rw [mendedAll_cons hexamine] at hx
          rcases List.mem_cons.mp hx with rfl | hx
          · exact faultFree_mended entry
          · exact faultFree_mendedAll rest x hx

end

theorem WellFormed.mended {tree : Entry} (h : WellFormed tree) :
    WellFormed (tree.mended blank) := by
  induction h with
  | file name faults content =>
      rw [Entry.mended]
      exact WellFormed.file name _ _
  | link name faults target =>
      rw [Entry.mended]
      exact WellFormed.link name _ target
  | special name faults =>
      rw [Entry.mended]
      exact WellFormed.special name _
  | @folder name faults entries distinct named inner ih =>
      rw [Entry.mended]
      split
      · refine WellFormed.folder name _ List.nodup_nil ?_ ?_
        · intro x hx
          cases hx
        · intro x hx
          cases hx
      · refine WellFormed.folder name _ ((map_name_mendedAll_sublist entries).nodup distinct) ?_ ?_
        · intro x hx
          obtain ⟨entry, hentry, -, rfl⟩ := mem_mendedAll.mp hx
          rw [name_mended]
          exact named entry hentry
        · intro x hx
          obtain ⟨entry, hentry, -, rfl⟩ := mem_mendedAll.mp hx
          exact ih entry hentry

/-- **What is reached in a tree is reached in the mended tree.** -/
theorem Reaches.mended {tree entry : Entry} {names : List String} (h : Reaches tree names entry) :
    Reaches (tree.mended blank) names (entry.mended blank) := by
  induction h with
  | here entry => exact Reaches.here _
  | @inside name faults entries child names entry listable member examinable further ih =>
      rw [Entry.mended, listable]
      have hmember : child.mended blank ∈ mendedAll blank entries :=
        mem_mendedAll.mpr ⟨child, member, examinable, rfl⟩
      have hexamine : (child.mended blank).faults.examine = false := by
        rw [faults_mended]
        rfl
      -- the child has kept its name, and nothing hides it any more
      have hlistable : Faults.none.list = false := rfl
      have hreach := Reaches.inside name hlistable hmember hexamine ih
      rw [name_mended] at hreach
      exact hreach

/-! ## Order -/

/-- In order, an entry can be put at its place before or after the others are mended. -/
theorem mendedAll_insertOrdered {entry : Entry} {entries : List Entry} (h : InOrder entries) :
    mendedAll blank (insertOrdered entry entries) =
      if entry.faults.examine then mendedAll blank entries
      else insertOrdered (mended blank entry) (mendedAll blank entries) := by
  induction entries with
  | nil =>
      simp only [insertOrdered, mendedAll]
  | cons other rest ih =>
      obtain ⟨hfirst, hrest⟩ := List.pairwise_cons.mp h
      rw [insertOrdered]
      split
      · rename_i hle
        -- the entry comes before all others, and so it does when they are mended
        have hbefore : ∀ x ∈ mendedAll blank (other :: rest),
            (mended blank entry).name ≤ x.name := by
          intro x hx
          obtain ⟨y, hy, -, rfl⟩ := mem_mendedAll.mp hx
          rw [name_mended, name_mended]
          rcases List.mem_cons.mp hy with rfl | hy
          · exact hle
          · exact String.le_trans hle (hfirst y hy)
        rw [insertOrdered_of_le hbefore, mendedAll]
      · -- the entry comes behind the first of the others, whether that is kept or not
        rename_i hnot
        cases hexamine : other.faults.examine with
        | true => rw [mendedAll_cons_hidden hexamine, mendedAll_cons_hidden hexamine, ih hrest]
        | false =>
            rw [mendedAll_cons hexamine, mendedAll_cons hexamine, ih hrest]
            split
            · rfl
            · rw [insertOrdered, name_mended, name_mended, if_neg hnot]

mutual

/-- **A tree can be put in order before or after it is mended.** -/
theorem ordered_mended : ∀ tree : Entry, (tree.mended blank).ordered = tree.ordered.mended blank
  | .file name faults content => by
      rw [mended, ordered, ordered, mended]
  | .link name faults target => by
      rw [mended, ordered, ordered, mended]
  | .special name faults => by
      rw [mended, ordered, ordered, mended]
  | .folder name faults entries => by
      rw [mended, ordered, ordered, mended]
      split
      · rw [orderedAll]
      · rw [orderedAll_mendedAll entries]

theorem orderedAll_mendedAll :
    ∀ entries : List Entry,
      orderedAll (mendedAll blank entries) = mendedAll blank (orderedAll entries)
  | [] => by
      rw [mendedAll, orderedAll, mendedAll]
  | entry :: rest => by
      rw [orderedAll, mendedAll_insertOrdered (inOrder_orderedAll rest), faults_ordered,
        ← orderedAll_mendedAll rest, ← ordered_mended entry]
      cases hexamine : entry.faults.examine with
      | true => rw [mendedAll_cons_hidden hexamine, if_pos rfl]
      | false =>
          rw [mendedAll_cons hexamine, orderedAll]
          rfl

end

end SourceAtlas.Entry
