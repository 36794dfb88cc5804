/-
# SourceAtlas.Proofs.Render.Forest — the trees of a graph, one after another.

The lines of a graph are those of its trees, with a gap between two of them (`Forest`).  Each tree
starts from a node that is not expanded when its turn comes, and what it expands is expanded for all
later trees.  `Accounted` says what is true of the lines after any number of trees: which nodes are
expanded, what is listed below each, and that every line is faithful to the lines before it.
Another tree keeps it true (`Accounted.plant`).

First every node starts a tree that imports something and that nothing imports, then every node that
is left.  In the end exactly the connected nodes are expanded (`exists_forest`).
-/
import SourceAtlas.Proofs.Render.Path

namespace SourceAtlas.Render.DependencyView

open DependencyLine

variable {view : DependencyView} {trees : List (List DependencyLine)}
  {tree lines : List DependencyLine} {expanded expanded' : List String} {node : String}

/-! ## Forests -/

/-- **`Forest view trees expanded`** — the trees are drawn one after another, each from a connected
node that is not expanded before, and in the end the nodes are expanded. -/
inductive Forest (view : DependencyView) : List (List DependencyLine) → List String → Prop
  | nil : Forest view [] []
  | plant {trees : List (List DependencyLine)} {tree : List DependencyLine}
      {expanded expanded' : List String} {node : String} (forest : Forest view trees expanded)
      (hconnected : node ∈ view.graph.connected) (hnew : node ∉ expanded)
      (drawn : view.Drawn [] [] true [node] expanded tree expanded') :
      Forest view (trees ++ [tree]) expanded'

/-- The lines of trees, with a gap between two of them. -/
def joined (trees : List (List DependencyLine)) : List DependencyLine :=
  [DependencyLine.gap].intercalate trees

theorem joined_append (trees : List (List DependencyLine)) (tree : List DependencyLine) :
    joined (trees ++ [tree]) = if trees = [] then tree else joined trees ++ gap :: tree := by
  unfold joined
  induction trees with
  | nil => exact List.intercalate_singleton
  | cons first trees ih =>
      rw [List.cons_append, List.intercalate_cons_of_ne_nil (by simp), ih]
      by_cases hnil : trees = []
      · simp [hnil]
      · simp [hnil, List.intercalate_cons_of_ne_nil hnil]

theorem mem_joined_append {line : DependencyLine} : line ∈ joined (trees ++ [tree]) ↔
    line ∈ joined trees ∨ line ∈ tree ∨ line = .gap ∧ trees ≠ [] := by
  rw [joined_append]
  split
  · rename_i hnil
    simp [hnil, joined]
  · rename_i hnil
    simp [hnil, or_comm]

/-- **A tree has one head**, which is not marked, and everything else stands below a node. -/
theorem Drawn.exists_head (h : view.Drawn [] [] true [node] expanded tree expanded')
    (hnew : node ∉ expanded) :
    ∃ below, tree = .head node .none :: below ∧ ∀ line ∈ below, line.ancestors ≠ [] := by
  cases h with
  | marked hplace hmark others =>
      exact absurd (markOf_eq_none_iff.mpr ⟨List.not_mem_nil, fun h => absurd h hnew⟩) hmark
  | opened hplace hmark below others =>
      cases others
      subst hplace
      refine ⟨_, rfl, fun line hline hnil => ?_⟩
      rw [List.append_nil] at hline
      rcases List.mem_append.mp hline with hline | hline
      · have hsuffix := below.ancestors_suffix line hline
        rw [hnil] at hsuffix
        cases List.suffix_nil.mp hsuffix
      · rw [(of_mem_missingLines hline).1] at hnil
        cases hnil

theorem Forest.exists_head (h : view.Forest trees expanded) : ∀ tree ∈ trees,
    ∃ node below, tree = .head node .none :: below ∧ ∀ line ∈ below, line.ancestors ≠ [] := by
  induction h with
  | nil => exact List.forall_mem_nil _
  | plant forest hconnected hnew drawn ih =>
      intro tree htree
      rcases List.mem_append.mp htree with htree | htree
      · exact ih tree htree
      · rw [List.mem_singleton.mp htree]
        exact ⟨_, drawn.exists_head hnew⟩

/-! ## What is true after any number of trees -/

/-- **`Accounted view lines expanded`** — the lines open the expanded nodes and list all that is
below them, and each line is faithful to those before it. -/
structure Accounted (view : DependencyView) (lines : List DependencyLine) (expanded : List String) :
    Prop where
  opened : OpenedBy expanded lines
  connected : ∀ node ∈ expanded, node ∈ view.graph.connected
  imports : ∀ node ∈ expanded, view.graph.importsOf node ⊆ expanded
  listing : ∀ node, lines.filterMap (entryOf? node) =
    if node ∈ expanded then view.entriesOf node else []
  faithful : EachAfter view.Faithful [] lines

theorem Accounted.nil : view.Accounted [] [] where
  opened _ := Iff.rfl
  connected := List.forall_mem_nil _
  imports := List.forall_mem_nil _
  listing _ := rfl
  faithful := .nil

theorem faithful_gap (past : List DependencyLine) : view.Faithful past .gap where
  path _ hplace := by cases hplace
  cycle := by simp [mark, node?]
  seen := by simp [mark, node?]

theorem Accounted.gap (h : view.Accounted lines expanded) :
    view.Accounted (lines ++ [.gap]) expanded where
  opened := h.opened.append rfl
  connected := h.connected
  imports := h.imports
  listing node := by
    rw [List.filterMap_append, h.listing node]
    exact List.append_nil _
  faithful := h.faithful.append (eachAfter_cons_iff.mpr ⟨faithful_gap _, .nil⟩)

/-- **Another tree keeps the lines accounted for.** -/
theorem Accounted.plant (h : view.Accounted lines expanded)
    (hconnected : node ∈ view.graph.connected)
    (drawn : view.Drawn [] [] true [node] expanded tree expanded') :
    view.Accounted (lines ++ tree) expanded' where
  opened := h.opened.append drawn.expanded_eq
  connected other hother := by
    rcases drawn.mem_or_imported hother with hold | hnode | ⟨source, hedge⟩
    · exact h.connected other hold
    · rw [List.mem_singleton.mp hnode]
      exact hconnected
    · exact ImportGraph.mem_connected_iff.mpr (Or.inr ⟨source, hedge⟩)
  imports other hother := by
    by_cases hold : other ∈ expanded
    · exact List.Subset.trans (h.imports other hold) drawn.subset
    · exact drawn.imports_subset (List.nil_subset _) hother hold
  listing other := by
    have hhead : ([] : List String).head? ≠ some other := by simp
    rw [List.filterMap_append, h.listing other, drawn.filterMap_entryOf? (List.nil_subset _) other,
      if_neg hhead, List.nil_append]
    by_cases hold : other ∈ expanded
    · simp [hold, drawn.subset hold]
    · simp [hold]
  faithful := h.faithful.append (drawn.faithful (fun h => absurd rfl h) h.opened)

theorem Forest.accounted (h : view.Forest trees expanded) :
    view.Accounted (joined trees) expanded := by
  induction h with
  | nil => exact .nil
  | plant forest hconnected hnew drawn ih =>
      rw [joined_append]
      split
      · rename_i hnil
        rw [hnil] at ih
        exact ih.plant hconnected drawn
      · rw [List.append_cons]
        exact ih.gap.plant hconnected drawn

/-! ## Growing the forest of a graph -/

/-- The lines drawn so far are those of a forest. -/
def Grown (view : DependencyView) (drawn : List DependencyLine × List String) : Prop :=
  ∃ trees, view.Forest trees drawn.2 ∧ drawn.1 = joined trees

theorem Forest.joined_eq_nil_iff (h : view.Forest trees expanded) :
    joined trees = [] ↔ trees = [] := by
  cases h with
  | nil => exact ⟨fun _ => rfl, fun _ => rfl⟩
  | plant forest hconnected hnew drawn =>
      obtain ⟨below, rfl, -⟩ := drawn.exists_head hnew
      rw [joined_append]
      split
      · simp
      · simp

section

variable {drawn : List DependencyLine × List String} {nodes : List String}

theorem subset_addTree (hclosed : view.graph.Closed) : drawn.2 ⊆ (view.addTree drawn node).2 :=
  (drawn_drawTree hclosed drawn.2 node).subset

theorem Grown.addTree (hclosed : view.graph.Closed) (h : view.Grown drawn)
    (hconnected : node ∈ view.graph.connected) (hnew : node ∉ drawn.2) :
    view.Grown (view.addTree drawn node) := by
  obtain ⟨trees, forest, hlines⟩ := h
  refine ⟨_, forest.plant hconnected hnew (drawn_drawTree hclosed drawn.2 node), ?_⟩
  rw [joined_append, DependencyView.addTree, hlines]
  simp only [List.isEmpty_iff, forest.joined_eq_nil_iff]

/-- Nodes that nothing imports are still new when their turn comes. -/
theorem Grown.foldl_addTree (hclosed : view.graph.Closed) (h : view.Grown drawn)
    (hconnected : ∀ node ∈ nodes, node ∈ view.graph.connected)
    (himported : ∀ node ∈ nodes, ∀ source, ⟨source, node⟩ ∉ view.graph.edges)
    (hnodup : nodes.Nodup) (hnew : ∀ node ∈ nodes, node ∉ drawn.2) :
    view.Grown (nodes.foldl view.addTree drawn) := by
  induction nodes generalizing drawn with
  | nil => exact h
  | cons node rest ih =>
      rw [List.forall_mem_cons] at hconnected himported hnew
      obtain ⟨hother, hnodup⟩ := List.nodup_cons.mp hnodup
      refine ih (h.addTree hclosed hconnected.1 hnew.1) hconnected.2 himported.2 hnodup ?_
      intro other hmem hexpanded
      rcases (drawn_drawTree hclosed drawn.2 node).mem_or_imported hexpanded with
        hold | hnode | ⟨source, hedge⟩
      · exact hnew.2 other hmem hold
      · exact hother (List.mem_singleton.mp hnode ▸ hmem)
      · exact himported.2 other hmem source hedge

theorem Grown.addLeftover (hclosed : view.graph.Closed) (h : view.Grown drawn)
    (hconnected : node ∈ view.graph.connected) : view.Grown (view.addLeftover drawn node) := by
  unfold DependencyView.addLeftover
  split
  · exact h
  · rename_i hleft
    rw [Bool.or_eq_true, not_or, List.contains_iff_mem] at hleft
    exact h.addTree hclosed hconnected hleft.1

theorem subset_addLeftover (hclosed : view.graph.Closed) :
    drawn.2 ⊆ (view.addLeftover drawn node).2 := by
  unfold addLeftover
  split
  · exact List.Subset.refl _
  · exact subset_addTree hclosed

/-- What imports something is expanded once its turn has come. -/
theorem mem_addLeftover (hclosed : view.graph.Closed) (himports : view.graph.importsOf node ≠ []) :
    node ∈ (view.addLeftover drawn node).2 := by
  unfold addLeftover
  split
  · rename_i hskipped
    rcases Bool.or_eq_true_iff.mp hskipped with h | h
    · exact List.contains_iff_mem.mp h
    · exact absurd (List.isEmpty_iff.mp h) himports
  · exact (drawn_drawTree hclosed drawn.2 node).nodes_subset (List.nil_subset _)
      List.mem_cons_self

theorem mem_foldl_addLeftover (hclosed : view.graph.Closed)
    (himports : view.graph.importsOf node ≠ []) (h : node ∈ drawn.2 ∨ node ∈ nodes) :
    node ∈ (nodes.foldl view.addLeftover drawn).2 := by
  induction nodes generalizing drawn with
  | nil => exact h.resolve_right List.not_mem_nil
  | cons first rest ih =>
      apply ih
      rcases h with h | h
      · exact Or.inl (subset_addLeftover hclosed h)
      · rcases List.mem_cons.mp h with rfl | h
        · exact Or.inl (mem_addLeftover hclosed himports)
        · exact Or.inr h

end

theorem of_mem_heads (h : node ∈ view.heads) :
    node ∈ view.graph.connected ∧ ∀ source, ⟨source, node⟩ ∉ view.graph.edges := by
  obtain ⟨hroot, hconnected⟩ := OrderedSet.mem_filter.mp h
  obtain ⟨-, hroot⟩ := OrderedSet.mem_filter.mp hroot
  refine ⟨List.contains_iff_mem.mp hconnected, fun source hedge => ?_⟩
  rw [Bool.not_eq_true', List.any_eq_false] at hroot
  exact hroot _ hedge (beq_self_eq_true node)

/-- **The lines of a closed graph are those of a forest, and in the end exactly the connected nodes
are expanded.** -/
theorem exists_forest (hclosed : view.graph.Closed) : ∃ trees expanded,
    view.Forest trees expanded ∧ view.lines = joined trees ∧
      ∀ node, node ∈ expanded ↔ node ∈ view.graph.connected := by
  have hheads : view.Grown (view.heads.foldl view.addTree ([], [])) :=
    Grown.foldl_addTree hclosed ⟨[], .nil, rfl⟩ (fun node h => (of_mem_heads h).1)
      (fun node h => (of_mem_heads h).2)
      (OrderedSet.nodup_of_increasing (OrderedSet.increasing _)) fun _ _ => List.not_mem_nil
  obtain ⟨trees, forest, hlines⟩ : view.Grown (view.graph.connected.toList.foldl view.addLeftover
      (view.heads.foldl view.addTree ([], []))) :=
    List.foldlRecOn _ _ hheads fun drawn h node hnode => h.addLeftover hclosed hnode
  have haccounted := forest.accounted
  refine ⟨trees, _, forest, hlines, fun node => ⟨haccounted.connected node, fun hnode => ?_⟩⟩
  have hsource : ∀ source ∈ view.graph.connected, view.graph.importsOf source ≠ [] →
      source ∈ (view.graph.connected.toList.foldl view.addLeftover
        (view.heads.foldl view.addTree ([], []))).2 :=
    fun source hsource himports => mem_foldl_addLeftover hclosed himports (Or.inr hsource)
  rcases ImportGraph.mem_connected_iff.mp hnode with himports | ⟨source, hedge⟩
  · exact hsource node hnode himports
  · -- a node that imports nothing stands below one that imports it
    have himports := ImportGraph.importsOf_ne_nil_iff.mpr ⟨node, hedge⟩
    have hmem := hsource source (ImportGraph.mem_connected_iff.mpr (Or.inl himports)) himports
    exact haccounted.imports source hmem (ImportGraph.mem_importsOf.mpr hedge)

end SourceAtlas.Render.DependencyView
