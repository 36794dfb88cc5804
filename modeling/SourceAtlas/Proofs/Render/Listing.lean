/-
# SourceAtlas.Proofs.Render.Listing — what is listed below a node, and how often.

Drawing nodes below their ancestors lists three things: the nodes themselves, below the nearest
ancestor; and below each node that is expanded on the way its imports and what it misses.  A node
that has something to list is expanded only once, so whatever stands below it stands there once
(`Drawn.filterMap_entryOf?`).  And nothing that an expanded node imports is left out
(`Drawn.imports_subset`).

What carries the inductions is that ancestors are expanded already: they are marked where they stand
again, and nothing is listed below them twice.
-/
import SourceAtlas.Proofs.Render.Drawing

namespace SourceAtlas.Render.DependencyView

open DependencyLine

variable {view : DependencyView} {ancestors nodes expanded expanded' : List String}
  {levels : List Bool} {nothingFollows : Bool} {lines : List DependencyLine}

/-- A node that is marked is expanded, if its ancestors are. -/
theorem mem_of_markOf_ne {node : String} (hancestors : ancestors ⊆ expanded)
    (hmark : view.markOf ancestors expanded node ≠ .none) : node ∈ expanded := by
  by_contra hnew
  exact hmark (markOf_eq_none_iff.mpr ⟨fun hmem => hnew (hancestors hmem), fun h => absurd h hnew⟩)

namespace Drawn

/-! ## Which nodes are expanded -/

/-- The nodes that the lines open are added to the expanded ones, the latest first. -/
theorem expanded_eq
    (h : view.Drawn ancestors levels nothingFollows nodes expanded lines expanded') :
    expanded' = (lines.filterMap opens?).reverse ++ expanded := by
  induction h with
  | nil => rfl
  | marked hplace hmark others ih =>
      rw [ih, List.filterMap_cons, opens?_lineOf, if_neg hmark]
  | opened hplace hmark below others ihbelow ihothers =>
      rw [ihothers, ihbelow, List.filterMap_cons, opens?_lineOf, if_pos rfl]
      simp [opens?_missingLines]

theorem subset (h : view.Drawn ancestors levels nothingFollows nodes expanded lines expanded') :
    expanded ⊆ expanded' := by
  rw [h.expanded_eq]
  exact List.subset_append_right _ _

/-- What is drawn is expanded afterwards. -/
theorem nodes_subset
    (h : view.Drawn ancestors levels nothingFollows nodes expanded lines expanded')
    (hancestors : ancestors ⊆ expanded) : nodes ⊆ expanded' := by
  induction h with
  | nil => exact List.nil_subset _
  | marked hplace hmark others ih =>
      exact List.cons_subset.mpr
        ⟨others.subset (mem_of_markOf_ne hancestors hmark), ih hancestors⟩
  | opened hplace hmark below others ihbelow ihothers =>
      have hbetween := below.subset
      exact List.cons_subset.mpr ⟨others.subset (hbetween List.mem_cons_self),
        ihothers (List.Subset.trans hancestors (List.subset_of_cons_subset hbetween))⟩

/-- What a newly expanded node imports is expanded afterwards. -/
theorem imports_subset
    (h : view.Drawn ancestors levels nothingFollows nodes expanded lines expanded')
    (hancestors : ancestors ⊆ expanded) {source : String} (hsource : source ∈ expanded')
    (hnew : source ∉ expanded) : view.graph.importsOf source ⊆ expanded' := by
  induction h with
  | nil => exact absurd hsource hnew
  | marked hplace hmark others ih => exact ih hancestors hsource hnew
  | @opened ancestors _ _ node _ expanded between _ _ _ _ hplace hmark below others ihbelow
      ihothers =>
      have hbetween : expanded ⊆ between := List.subset_of_cons_subset below.subset
      have hbelow : node :: ancestors ⊆ node :: expanded :=
        List.cons_subset_cons node hancestors
      by_cases hmem : source ∈ between
      · by_cases hnode : source = node
        · subst hnode
          exact List.Subset.trans (below.nodes_subset hbelow) others.subset
        · have hold : source ∉ node :: expanded := List.not_mem_cons_of_ne_of_not_mem hnode hnew
          exact List.Subset.trans (ihbelow hbelow hmem hold) others.subset
      · exact ihothers (List.Subset.trans hancestors hbetween) hsource hmem

/-- A newly expanded node is one of the nodes that are drawn, or something imports it. -/
theorem mem_or_imported
    (h : view.Drawn ancestors levels nothingFollows nodes expanded lines expanded') {node : String}
    (hnode : node ∈ expanded') :
    node ∈ expanded ∨ node ∈ nodes ∨ ∃ source, ⟨source, node⟩ ∈ view.graph.edges := by
  induction h with
  | nil => exact Or.inl hnode
  | marked hplace hmark others ih =>
      rcases ih hnode with h | h | h
      · exact Or.inl h
      · exact Or.inr (Or.inl (List.mem_cons_of_mem _ h))
      · exact Or.inr (Or.inr h)
  | opened hplace hmark below others ihbelow ihothers =>
      rcases ihothers hnode with h | h | h
      · rcases ihbelow h with h | h | h
        · rcases List.mem_cons.mp h with rfl | h
          · exact Or.inr (Or.inl List.mem_cons_self)
          · exact Or.inl h
        · exact Or.inr (Or.inr ⟨_, ImportGraph.mem_importsOf.mp h⟩)
        · exact Or.inr (Or.inr h)
      · exact Or.inr (Or.inl (List.mem_cons_of_mem _ h))
      · exact Or.inr (Or.inr h)

/-! ## What the lines list -/

/-- **What the lines list below a node**: the nodes that are drawn, if it is the nearest ancestor,
and all it has to list, if it is newly expanded. -/
theorem filterMap_entryOf?
    (h : view.Drawn ancestors levels nothingFollows nodes expanded lines expanded')
    (hancestors : ancestors ⊆ expanded) (source : String) :
    lines.filterMap (entryOf? source) =
      (if ancestors.head? = some source then nodes.map .file else [])
        ++ if source ∈ expanded' ∧ source ∉ expanded then view.entriesOf source else [] := by
  induction h with
  | nil => simp
  | marked hplace hmark others ih =>
      rw [entryOf?_lineOf_cons hplace, ih hancestors]
      split
      · rfl
      · rfl
  | @opened ancestors _ _ node _ expanded between expanded' _ _ _ hplace hmark below others ihbelow
      ihothers =>
      have hbelow : node :: ancestors ⊆ node :: expanded :=
        List.cons_subset_cons node hancestors
      have hbetween : expanded ⊆ between := List.subset_of_cons_subset below.subset
      have hnode : node ∈ between := below.subset List.mem_cons_self
      have hrest : between ⊆ expanded' := others.subset
      obtain ⟨hpath, hlisted⟩ := markOf_eq_none_iff.mp hmark
      rw [entryOf?_lineOf_cons hplace, List.filterMap_append, List.filterMap_append,
        entryOf?_missingLines, ihbelow hbelow,
        ihothers (List.Subset.trans hancestors hbetween), List.head?_cons]
      by_cases hhead : ancestors.head? = some source
      · -- an ancestor is expanded already, and not where it stands again
        have hold : source ∈ expanded := hancestors (List.mem_of_head? hhead)
        have hne : node ≠ source := fun heq => hpath (heq ▸ List.mem_of_head? hhead)
        simp [hhead, hne, hold, hbetween hold]
      · by_cases heq : node = source
        · subst heq
          by_cases hold : node ∈ expanded
          · -- opened once more, a node has nothing to list
            have hnothing := entriesOf_eq_nil_iff.mp (hlisted hold)
            simp [hhead, hold, hnode, hnothing]
          · simp [hhead, hold, hnode, hrest hnode, entriesOf]
        · by_cases hold : source ∈ expanded
          · simp [hhead, heq, hold, hbetween hold]
          · by_cases hmem : source ∈ between
            · simp [hhead, heq, Ne.symm heq, hold, hmem, hrest hmem]
            · simp [hhead, heq, hold, hmem]

end Drawn

end SourceAtlas.Render.DependencyView
