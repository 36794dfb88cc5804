/-
# SourceAtlas.Proofs.Render.Drawing — what is drawn, without a bound on the depth.

A tree is drawn with a bound on the length of its paths.  `Drawn` says the same without one: which
lines stand for nodes that are drawn one after another, and which nodes are expanded before and
after.  A node that is marked gives one line; any other gives its line, then the lines below it, and
only then do the nodes after it follow.

The nodes of a path are distinct, and all but the last import something, so no path is longer than
the graph has nodes and the bound is never met (`drawn_drawTree`).  A drawing is thus a finite
derivation on every graph, with cycles or without, and what is said about drawings is proved by
induction on derivations.
-/
import Mathlib.Data.List.Perm.Subperm
import SourceAtlas.Proofs.ImportGraph.Closed
import SourceAtlas.Proofs.Render.Line

namespace SourceAtlas.Render.DependencyView

/-- **`Drawn view ancestors levels nothingFollows nodes expanded lines expanded'`** — drawn one
after another below the ancestors, the nodes give the lines; before them one list of nodes is
expanded, after them the other. -/
inductive Drawn (view : DependencyView) : List String → List Bool → Bool → List String →
    List String → List DependencyLine → List String → Prop
  | nil {ancestors : List String} {levels : List Bool} {nothingFollows : Bool}
      {expanded : List String} : Drawn view ancestors levels nothingFollows [] expanded [] expanded
  | marked {ancestors : List String} {levels : List Bool} {nothingFollows : Bool} {node : String}
      {rest expanded expanded' : List String} {lines : List DependencyLine} {place : Option Place}
      (hplace : place = placeIn ancestors levels (rest.isEmpty && nothingFollows))
      (hmark : view.markOf ancestors expanded node ≠ .none)
      (others : Drawn view ancestors levels nothingFollows rest expanded lines expanded') :
      Drawn view ancestors levels nothingFollows (node :: rest) expanded
        (lineOf ancestors node place (view.markOf ancestors expanded node) :: lines) expanded'
  | opened {ancestors : List String} {levels : List Bool} {nothingFollows : Bool} {node : String}
      {rest expanded between expanded' : List String} {inner lines : List DependencyLine}
      {place : Option Place}
      (hplace : place = placeIn ancestors levels (rest.isEmpty && nothingFollows))
      (hmark : view.markOf ancestors expanded node = .none)
      (below : Drawn view (node :: ancestors) (Place.below place) (view.missingOf node).isEmpty
        (view.graph.importsOf node) (node :: expanded) inner between)
      (others : Drawn view ancestors levels nothingFollows rest between lines expanded') :
      Drawn view ancestors levels nothingFollows (node :: rest) expanded
        (lineOf ancestors node place .none :: (inner
          ++ missingLines (node :: ancestors) (Place.below place) (view.missingOf node) ++ lines))
        expanded'

variable {view : DependencyView} {ancestors : List String} {levels : List Bool}
  {nothingFollows : Bool} {node : String} {rest expanded between expanded' : List String}
  {first lines : List DependencyLine}

/-- A node and the nodes after it are drawn together. -/
theorem Drawn.cons
    (h : view.Drawn ancestors levels (rest.isEmpty && nothingFollows) [node] expanded first between)
    (others : view.Drawn ancestors levels nothingFollows rest between lines expanded') :
    view.Drawn ancestors levels nothingFollows (node :: rest) expanded (first ++ lines)
      expanded' := by
  cases h with
  | marked hplace hmark hnil =>
      cases hnil
      exact .marked hplace hmark others
  | opened hplace hmark below hnil =>
      cases hnil
      rw [List.append_nil]
      exact .opened hplace hmark below others

/-- Where each node is drawn for itself, all are drawn one after another. -/
theorem drawn_drawAll
    {draw : List String → Bool → String → List DependencyLine × List String} {nodes : List String}
    (hdraw : ∀ node ∈ nodes, ∀ expanded isLast, view.Drawn ancestors levels isLast [node] expanded
      (draw expanded isLast node).1 (draw expanded isLast node).2)
    (nothingFollows : Bool) (expanded : List String) :
    view.Drawn ancestors levels nothingFollows nodes expanded
      (drawAll draw nothingFollows nodes expanded).1
      (drawAll draw nothingFollows nodes expanded).2 := by
  induction nodes generalizing expanded with
  | nil => exact .nil
  | cons node rest ih =>
      obtain ⟨hnode, hrest⟩ := List.forall_mem_cons.mp hdraw
      exact (hnode expanded _).cons (ih hrest _)

/-- **With enough depth a node is drawn without a bound.**  What bounds the depth is the number of
nodes that are not among the ancestors. -/
theorem drawn_drawNode (hclosed : view.graph.Closed) {depth : Nat} (hnodup : ancestors.Nodup)
    (hnodes : ∀ a ∈ ancestors, a ∈ view.graph.nodes)
    (hdepth : view.graph.nodes.size < ancestors.length + depth) (expanded : List String)
    (levels : List Bool) (isLast : Bool) (node : String) :
    view.Drawn ancestors levels isLast [node] expanded
      (view.drawNode depth ancestors expanded (placeIn ancestors levels isLast) node).1
      (view.drawNode depth ancestors expanded (placeIn ancestors levels isLast) node).2 := by
  induction depth generalizing ancestors expanded levels isLast node with
  | zero =>
      have hle : ancestors.length ≤ view.graph.nodes.toList.length :=
        (List.subperm_of_subset hnodup hnodes).length_le
      exact absurd hdepth (Nat.not_lt.mpr hle)
  | succ depth ih =>
      unfold drawNode
      simp only
      split
      · rename_i hmark
        rw [hmark, ← List.append_nil (_ ++ missingLines _ _ _)]
        refine .opened rfl hmark (drawn_drawAll (fun child hchild expanded isLast => ?_) _ _) .nil
        have hnew : node ∉ ancestors := (markOf_eq_none_iff.mp hmark).1
        have hnode : node ∈ view.graph.nodes :=
          hclosed.source _ (ImportGraph.mem_importsOf.mp hchild)
        exact ih (List.nodup_cons.mpr ⟨hnew, hnodup⟩) (List.forall_mem_cons.mpr ⟨hnode, hnodes⟩)
          (by rw [List.length_cons]; omega) expanded _ isLast child
      · rename_i hmark
        exact .marked rfl hmark .nil

/-- **A tree is drawn without a bound on its depth.** -/
theorem drawn_drawTree (hclosed : view.graph.Closed) (expanded : List String) (node : String) :
    view.Drawn [] [] true [node] expanded (view.drawTree expanded node).1
      (view.drawTree expanded node).2 :=
  drawn_drawNode hclosed List.nodup_nil (List.forall_mem_nil _) (by simp) expanded [] true node

end SourceAtlas.Render.DependencyView
