/-
# SourceAtlas.Proofs.Keyed — lists whose elements have distinct keys.

The entries of a folder have distinct names, the reads of a pool distinct paths, the results of a
scan distinct files.  In such a list the first element with a key is the only one, so that looking a
key up finds exactly the element that has it.
-/
import Mathlib.Data.List.Nodup

namespace SourceAtlas

variable {α β : Type}

/-- Where keys are distinct, every element is found by its key. -/
theorem find?_of_nodup {key : α → String} {l : List α} (hdistinct : (l.map key).Nodup) {a : α}
    (h : a ∈ l) : l.find? (key · == key a) = some a := by
  cases hfind : l.find? (key · == key a) with
  | none => exact absurd (beq_self_eq_true (key a)) (List.find?_eq_none.mp hfind a h)
  | some b =>
      have hkey := List.find?_some hfind
      rw [List.inj_on_of_nodup_map hdistinct (List.mem_of_find?_eq_some hfind) h (eq_of_beq hkey)]

/-- Where keys are distinct, every value is found under its key. -/
theorem lookup_of_nodup {entries : List (String × β)} {key : String} {value : β}
    (hnodup : (entries.map Prod.fst).Nodup) (h : (key, value) ∈ entries) :
    entries.lookup key = some value := by
  obtain ⟨before, after, rfl⟩ := List.append_of_mem h
  refine List.lookup_eq_some_iff.mpr ⟨before, after, rfl, fun entry hentry => ?_⟩
  rw [bne_iff_ne]
  intro heq
  rw [List.map_append, List.nodup_append] at hnodup
  exact hnodup.2.2 entry.1 (List.mem_map_of_mem hentry) key (by simp) heq.symm

/-- Nothing is found under a key that no entry has. -/
theorem lookup_of_not_mem {entries : List (String × β)} {key : String}
    (h : key ∉ entries.map Prod.fst) : entries.lookup key = none := by
  rw [List.lookup_eq_none_iff]
  intro entry hentry
  rw [bne_iff_ne]
  rintro rfl
  exact h (List.mem_map_of_mem hentry)

/-! ## The order of elements -/

/-- Where keys are distinct, what a key finds does not depend on the order of the elements. -/
theorem find?_perm {key : α → String} {l m : List α} (hperm : l.Perm m)
    (hdistinct : (l.map key).Nodup) (k : String) :
    l.find? (key · == k) = m.find? (key · == k) := by
  cases hfind : l.find? (key · == k) with
  | some a =>
      have hmem := hperm.subset (List.mem_of_find?_eq_some hfind)
      have hkey := List.find?_some hfind
      rw [← eq_of_beq hkey]
      exact (find?_of_nodup ((hperm.map key).nodup_iff.mp hdistinct) hmem).symm
  | none =>
      symm
      rw [List.find?_eq_none] at hfind ⊢
      exact fun a ha => hfind a (hperm.symm.subset ha)

/-- Where keys are distinct, the value of a key does not depend on the order of the entries. -/
theorem lookup_perm {entries entries' : List (String × β)} (hperm : entries.Perm entries')
    (hdistinct : (entries.map Prod.fst).Nodup) (key : String) :
    entries.lookup key = entries'.lookup key := by
  by_cases hkey : key ∈ entries.map Prod.fst
  · obtain ⟨⟨_, value⟩, hmem, rfl⟩ := List.mem_map.mp hkey
    rw [lookup_of_nodup hdistinct hmem,
      lookup_of_nodup ((hperm.map _).nodup_iff.mp hdistinct) (hperm.subset hmem)]
  · rw [lookup_of_not_mem hkey,
      lookup_of_not_mem fun hmem => hkey ((hperm.map _).symm.subset hmem)]

/-! ## First matches -/

/-- What is found first depends on what is found at the elements alone. -/
theorem findSome?_congr {f g : α → Option β} {l : List α}
    (h : ∀ a ∈ l, f a = g a) : l.findSome? f = l.findSome? g := by
  induction l with
  | nil => rfl
  | cons a rest ih =>
      rw [List.findSome?_cons, List.findSome?_cons, h a List.mem_cons_self,
        ih fun b hb => h b (List.mem_cons_of_mem a hb)]

end SourceAtlas
