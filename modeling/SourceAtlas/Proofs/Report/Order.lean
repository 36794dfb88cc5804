/-
# SourceAtlas.Proofs.Report.Order — orders in which no two files tie.

Files are sorted for the report, for the main file and for the ranking, each time by some numbers
and last by path.  Each of these orders is that of a key, a tuple that is compared from the left
with the numbers turned about (`isLarger_iff_le`, `leadsAsMain_iff_le`,
`CriticalEntry.leads_iff_le`); a number in front of an order is a number in front of its key
(`descending_iff_le`).

`Settles` says what such an order is: it is linear up to ties, and only elements of one path tie.
An order with a key that ends in the path is one (`Settles.ofRank`).  Sorting elements with distinct
paths then forgets in which order they came (`Settles.mergeSort_perm`).
-/
import Mathlib.Data.List.Nodup
import Mathlib.Data.Prod.Lex
import Mathlib.Data.String.Basic
import SourceAtlas.Rank

namespace SourceAtlas

variable {α : Type}

/-- **`Settles le path`** — an order for sorting, in which only elements of one path tie. -/
structure Settles (le : α → α → Bool) (path : α → String) : Prop where
  trans : ∀ a b c, le a b = true → le b c = true → le a c = true
  total : ∀ a b, (le a b || le b a) = true
  ties : ∀ a b, le a b = true → le b a = true → path a = path b

namespace Settles

variable {le : α → α → Bool} {path : α → String}

/-- The order of a key that tells the path. -/
theorem ofRank {β : Type} [LinearOrder β] {rank : α → β}
    (h : ∀ a b, le a b = true ↔ rank a ≤ rank b) (hpath : ∀ a b, rank a = rank b → path a = path b) :
    Settles le path where
  trans a b c hab hbc := (h a c).mpr (((h a b).mp hab).trans ((h b c).mp hbc))
  total a b := by
    rw [Bool.or_eq_true, h, h]
    exact le_total _ _
  ties a b hab hba := hpath a b (le_antisymm ((h a b).mp hab) ((h b a).mp hba))

/-- The order of paths. -/
theorem byPath (path : α → String) : Settles (fun a b => decide (path a ≤ path b)) path :=
  ofRank (fun _ _ => decide_eq_true_iff) fun _ _ h => h

/-- **Sorting elements with distinct paths forgets in which order they came.** -/
theorem mergeSort_perm (h : Settles le path) {l m : List α} (hperm : l.Perm m)
    (distinct : (l.map path).Nodup) : l.mergeSort le = m.mergeSort le := by
  have hl := List.mergeSort_perm l le
  have hm := List.mergeSort_perm m le
  refine List.Perm.eq_of_pairwise ?_ (List.pairwise_mergeSort h.trans h.total l)
    (List.pairwise_mergeSort h.trans h.total m) ((hl.trans hperm).trans hm.symm)
  intro a b ha hb hab hba
  exact List.inj_on_of_nodup_map distinct (hl.subset ha) (hperm.symm.subset (hm.subset hb))
    (h.ties a b hab hba)

end Settles

/-! ## Keys of files and entries -/

/-- What files are compared by when they are ranked by size: size descending, then path. -/
def TrackedFile.sizeRank (file : TrackedFile) : Int ×ₗ String :=
  toLex (-file.size, file.path)

/-- What files are compared by as main files: priority descending, size descending, then path. -/
def TrackedFile.mainRank (file : TrackedFile) : Int ×ₗ Int ×ₗ String :=
  toLex (-mainPriority file.path file.extension, file.sizeRank)

/-- The score of an entry as an integer of the same order; without a score it is zero. -/
def CriticalEntry.scoreKey (entry : CriticalEntry) : Int :=
  (entry.score.map Number.orderKey).getD 0

/-- What entries are compared by: score, importers and size, each descending, then path. -/
def CriticalEntry.rank (entry : CriticalEntry) : Int ×ₗ Int ×ₗ Int ×ₗ String :=
  toLex (-entry.scoreKey, toLex (-entry.inbound, toLex (-entry.size, entry.path)))

/-- Files of one key have one path. -/
theorem TrackedFile.path_eq_of_sizeRank {a b : TrackedFile} (h : a.sizeRank = b.sizeRank) :
    a.path = b.path :=
  (Prod.mk.inj (toLex.injective h)).2

theorem TrackedFile.path_eq_of_mainRank {a b : TrackedFile} (h : a.mainRank = b.mainRank) :
    a.path = b.path :=
  path_eq_of_sizeRank (Prod.mk.inj (toLex.injective h)).2

/-- Entries of one key have one path. -/
theorem CriticalEntry.path_eq_of_rank {a b : CriticalEntry} (h : a.rank = b.rank) :
    a.path = b.path := by
  have hbehindScore := (Prod.mk.inj (toLex.injective h)).2
  have hbehindImporters := (Prod.mk.inj (toLex.injective hbehindScore)).2
  exact (Prod.mk.inj (toLex.injective hbehindImporters)).2

/-! ## The orders of files and entries -/

/-- **A number in front of an order**, the greatest first, is a number in front of its key. -/
theorem descending_iff_le {β : Type} [LinearOrder β] {le : α → α → Bool} {rank : α → β}
    (h : ∀ a b, le a b = true ↔ rank a ≤ rank b) (key : α → Int) (a b : α) :
    (if key a ≠ key b then decide (key b < key a) else le a b) = true ↔
      toLex (-key a, rank a) ≤ toLex (-key b, rank b) := by
  rw [Prod.Lex.toLex_le_toLex]
  simp only [Int.neg_lt_neg_iff, Int.neg_inj]
  split
  · rename_i hne
    rw [decide_eq_true_iff]
    exact ⟨Or.inl, fun hor => hor.resolve_right fun heq => hne heq.1⟩
  · rename_i heq
    have heq : key a = key b := not_not.mp heq
    rw [h]
    exact ⟨fun hle => Or.inr ⟨heq, hle⟩, fun hor => (hor.resolve_left fun hlt => hlt.ne heq.symm).2⟩

theorem isLarger_iff_le (a b : TrackedFile) : isLarger a b = true ↔ a.sizeRank ≤ b.sizeRank :=
  descending_iff_le (fun _ _ => decide_eq_true_iff) TrackedFile.size a b

theorem leadsAsMain_iff_le (a b : TrackedFile) :
    leadsAsMain a b = true ↔ a.mainRank ≤ b.mainRank :=
  descending_iff_le isLarger_iff_le (fun file => mainPriority file.path file.extension) a b

theorem CriticalEntry.leads_iff_le (a b : CriticalEntry) : a.leads b = true ↔ a.rank ≤ b.rank := by
  have hsize := descending_iff_le
    (fun a b : CriticalEntry => decide_eq_true_iff (p := a.path ≤ b.path)) CriticalEntry.size
  have hinbound := descending_iff_le hsize CriticalEntry.inbound
  exact descending_iff_le hinbound CriticalEntry.scoreKey a b

theorem settles_isLarger : Settles isLarger TrackedFile.path :=
  Settles.ofRank isLarger_iff_le fun _ _ => TrackedFile.path_eq_of_sizeRank

theorem settles_leadsAsMain : Settles leadsAsMain TrackedFile.path :=
  Settles.ofRank leadsAsMain_iff_le fun _ _ => TrackedFile.path_eq_of_mainRank

theorem CriticalEntry.settles_leads : Settles CriticalEntry.leads CriticalEntry.path :=
  Settles.ofRank CriticalEntry.leads_iff_le fun _ _ => CriticalEntry.path_eq_of_rank

end SourceAtlas
