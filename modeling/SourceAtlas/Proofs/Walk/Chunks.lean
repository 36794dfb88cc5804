/-
# SourceAtlas.Proofs.Walk.Chunks — a walk as one chunk per look.

A walk looks at the signal once before each entry it comes to, and what it yields up to the next
look is the chunk of that entry: its own line, or nothing for a folder that is gone into, a link or
a special file.  The chunks of a tree do not depend on the signal.  A walk under a signal yields as
many of them as the signal grants looks, and a walk without a signal yields them all
(`listingUnder_eq`, `listing_eq`).

All there is to say about a walk that is called off follows from this: what it yields is where the
whole listing begins, it grows with the number of looks, and the last look of the walk finds the
signal set exactly if the tree has at least as many chunks as there were looks (`files_after`).
-/
import SourceAtlas.Proofs.Signal
import SourceAtlas.Walk

namespace SourceAtlas

namespace Walk

open Signal

/-! ## Chunks -/

/-- What an entry yields by itself, whatever lies below it. -/
def own (lead : String) : Entry → List Found
  | .file name faults content =>
    [⟨lead ++ name, if faults.examine then none else some content.size⟩]
  | .folder name faults _ => if faults.examine || faults.list then [⟨lead ++ name, none⟩] else []
  | .link name faults _ => if faults.examine then [⟨lead ++ name, none⟩] else []
  | .special name faults => if faults.examine then [⟨lead ++ name, none⟩] else []

mutual

/-- The chunks of what lies below an entry. -/
def below (lead : String) : Entry → List (List Found)
  | .folder name faults entries =>
    if faults.examine || faults.list then [] else chunksAll (lead ++ name ++ "/") entries
  | .file _ _ _ => []
  | .link _ _ _ => []
  | .special _ _ => []

/-- The chunks of entries, one after another. -/
def chunksAll (lead : String) : List Entry → List (List Found)
  | [] => []
  | entry :: rest => own lead entry :: (below lead entry ++ chunksAll lead rest)

end

/-- The chunks of the tree below a root. -/
def chunks (root : Entry) : List (List Found) :=
  if root.faults.list then [] else chunksAll "" root.ordered.entries

/-- The number of looks of a walk that is not called off, the last one left out. -/
def looks (root : Entry) : Nat :=
  (chunks root).length

/-- What a walk yields before its first look. -/
def opening (root : Entry) : List Found :=
  if root.faults.list then [⟨"", none⟩] else []

/-! ## Without a signal -/

mutual

theorem listEntry_eq (lead : String) :
    ∀ entry : Entry, listEntry lead entry = own lead entry ++ (below lead entry).flatten
  | .file name faults content => by
      rw [listEntry, own, below, List.flatten_nil, List.append_nil]
  | .folder name faults entries => by
      rw [listEntry, own, below]
      split
      · rfl
      · rw [listAll_eq (lead ++ name ++ "/") entries, List.nil_append]
  | .link name faults target => by
      rw [listEntry, own, below, List.flatten_nil, List.append_nil]
  | .special name faults => by
      rw [listEntry, own, below, List.flatten_nil, List.append_nil]

theorem listAll_eq (lead : String) :
    ∀ entries : List Entry, listAll lead entries = (chunksAll lead entries).flatten
  | [] => by rw [listAll, chunksAll, List.flatten_nil]
  | entry :: rest => by
      rw [listAll, chunksAll, listEntry_eq lead entry, listAll_eq lead rest, List.flatten_cons,
        List.flatten_append, List.append_assoc]

end

/-- A walk yields all its chunks. -/
theorem listing_eq (root : Entry) : listing root = opening root ++ (chunks root).flatten := by
  unfold listing opening chunks
  split
  · rfl
  · rw [listAll_eq, List.nil_append]

/-! ## Under a signal -/

mutual

theorem walkEntry_eq (lead : String) :
    ∀ (entry : Entry) (signal : Signal), signal.onExamine = none →
      walkEntry lead entry signal =
        (own lead entry ++ (signal.grant (below lead entry)).flatten,
          signal.spend (below lead entry).length)
  | .file name faults content, signal, _ => by
      simp only [walkEntry, own, below, grant_nil, List.flatten_nil, List.append_nil,
        List.length_nil, spend_zero]
  | .folder name faults entries, signal, h => by
      rw [walkEntry, own, below]
      by_cases hfault : (faults.examine || faults.list) = true
      · simp only [if_pos hfault, grant_nil, List.flatten_nil, List.append_nil, List.length_nil,
          spend_zero]
      · simp only [if_neg hfault, List.nil_append]
        exact walkAll_eq (lead ++ name ++ "/") entries signal h
  | .link name faults target, signal, _ => by
      simp only [walkEntry, own, below, grant_nil, List.flatten_nil, List.append_nil,
        List.length_nil, spend_zero]
  | .special name faults, signal, _ => by
      simp only [walkEntry, own, below, grant_nil, List.flatten_nil, List.append_nil,
        List.length_nil, spend_zero]

theorem walkAll_eq (lead : String) :
    ∀ (entries : List Entry) (signal : Signal), signal.onExamine = none →
      walkAll lead entries signal =
        ((signal.grant (chunksAll lead entries)).flatten,
          signal.spend (chunksAll lead entries).length)
  | [], signal, _ => by
      simp only [walkAll, chunksAll, grant_nil, List.flatten_nil, List.length_nil, spend_zero]
  | entry :: rest, signal, h => by
      rw [walkAll, chunksAll]
      cases hset : signal.isSet with
      | true =>
          obtain ⟨hlook, hspend, hgrant⟩ := look_of_isSet hset
          rw [hlook, hgrant, hspend, List.flatten_nil]
      | false =>
          obtain ⟨hlook, hgrant⟩ := look_of_not_isSet hset
          -- the look is spent on the entry's own chunk, and what is left goes to what follows
          have hnext : (signal.spend 1).onExamine = none := h
          have hafter : ((signal.spend 1).spend (below lead entry).length).onExamine = none := h
          simp only [hlook, examine_of_none hnext]
          rw [walkEntry_eq lead entry (signal.spend 1) hnext]
          simp only
          rw [walkAll_eq lead rest _ hafter, hgrant, grant_append, List.flatten_cons,
            List.flatten_append, List.length_cons, List.length_append]
          simp only [spend_spend, List.append_assoc]
          congr 2
          omega

end

/-- **A walk under a signal yields the chunks that the signal grants.** -/
theorem listingUnder_eq {signal : Signal} (h : signal.onExamine = none) (root : Entry) :
    listingUnder signal root =
      (opening root ++ (signal.grant (chunks root)).flatten, signal.spend (looks root)) := by
  unfold listingUnder opening looks chunks
  split
  · rw [grant_nil, List.flatten_nil, List.append_nil, List.length_nil, spend_zero]
  · rw [walkAll_eq "" root.ordered.entries signal h, List.nil_append]

theorem listingUnder_never (root : Entry) : listingUnder never root = (listing root, never) := by
  rw [listingUnder_eq rfl, listing_eq]
  rfl

variable {folders extensions : List String}

theorem files_never (root : Entry) :
    files folders extensions never root =
      (classify folders extensions (listing root) false, never) := by
  unfold files
  rw [listingUnder_never]
  rfl

end Walk

end SourceAtlas
