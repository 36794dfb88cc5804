/-
# SourceAtlas.Proofs.Render.Cycle — a cycle leaves a mark, and nothing else does.

A node that stands below itself closes a cycle, for each node on a path imports the next
(`Drawn.chain`).

The converse is less plain.  A cycle could hide behind nodes that are not expanded again, or where
no tree starts.  It cannot, because of what is settled: the nodes that are expanded and not on the
current path.  As long as no line is marked for a cycle, what a settled node imports is settled too,
and no settled node reaches itself (`Settled`).  A node joins them when it leaves the path, and by
then all its imports have (`Settled.leave`).  In the end the path is empty and every node that
imports something is settled.
-/
import Mathlib.Logic.Relation
import SourceAtlas.Proofs.Render.Exact

namespace SourceAtlas

/-- One node imports the other. -/
def ImportGraph.Imports (graph : ImportGraph) (source target : String) : Prop :=
  ⟨source, target⟩ ∈ graph.edges

/-- Some node is reached from itself by imports. -/
def ImportGraph.HasCycle (graph : ImportGraph) : Prop :=
  ∃ node, Relation.TransGen graph.Imports node node

namespace Render

open DependencyLine

namespace DependencyView

variable {view : DependencyView} {ancestors nodes expanded expanded' : List String}
  {levels : List Bool} {nothingFollows : Bool} {lines : List DependencyLine} {node : String}

/-! ## A path is a chain of imports -/

/-- **`Chain view path`** — each node of the path is imported by the next. -/
def Chain (view : DependencyView) (path : List String) : Prop :=
  path.IsChain fun target source => view.graph.Imports source target

theorem Drawn.chain
    (h : view.Drawn ancestors levels nothingFollows nodes expanded lines expanded')
    (hnodes : ∀ node ∈ nodes, view.Chain (node :: ancestors)) :
    ∀ line ∈ lines, ∀ node ∈ line.node?, view.Chain (node :: line.ancestors) := by
  induction h with
  | nil => exact List.forall_mem_nil _
  | marked hplace hmark others ih =>
      rw [List.forall_mem_cons] at hnodes
      refine List.forall_mem_cons.mpr ⟨?_, ih hnodes.2⟩
      rw [node?_lineOf, ancestors_lineOf hplace]
      rintro node ⟨⟩
      exact hnodes.1
  | opened hplace hmark below others ihbelow ihothers =>
      rw [List.forall_mem_cons] at hnodes
      refine List.forall_mem_cons.mpr ⟨?_, fun line hline => ?_⟩
      · rw [node?_lineOf, ancestors_lineOf hplace]
        rintro node ⟨⟩
        exact hnodes.1
      · rcases List.mem_append.mp hline with hline | hline
        · rcases List.mem_append.mp hline with hline | hline
          · refine ihbelow (fun child hchild => ?_) line hline
            exact List.isChain_cons_cons.mpr ⟨ImportGraph.mem_importsOf.mp hchild, hnodes.1⟩
          · rw [(of_mem_missingLines hline).2.1]
            rintro node ⟨⟩
        · exact ihothers hnodes.2 line hline

/-- Every node behind the first of a chain reaches it. -/
theorem Chain.transGen {path : List String} {source : String} (h : view.Chain (node :: path))
    (hsource : source ∈ path) : Relation.TransGen view.graph.Imports source node := by
  have htrans : (node :: path).IsChain fun target source =>
      Relation.TransGen view.graph.Imports source target :=
    List.IsChain.imp (fun _ _ h => .single h) h
  have : IsTrans String fun target source =>
      Relation.TransGen view.graph.Imports source target := ⟨fun _ _ _ hab hbc => hbc.trans hab⟩
  exact (List.pairwise_cons.mp (List.isChain_iff_pairwise.mp htrans)).1 source hsource

/-! ## Settled nodes -/

/-- **`Settled view ancestors expanded`** — from a node that is expanded and not among the ancestors
imports lead only to such nodes, and never back to it. -/
structure Settled (view : DependencyView) (ancestors expanded : List String) : Prop where
  closed : ∀ node ∈ expanded, node ∉ ancestors → ∀ target, view.graph.Imports node target →
    target ∈ expanded ∧ target ∉ ancestors
  acyclic : ∀ node ∈ expanded, node ∉ ancestors →
    ¬ Relation.TransGen view.graph.Imports node node

namespace Settled

theorem reach (h : view.Settled ancestors expanded) {target : String} (hnode : node ∈ expanded)
    (hpath : node ∉ ancestors) (hreach : Relation.ReflTransGen view.graph.Imports node target) :
    target ∈ expanded ∧ target ∉ ancestors := by
  induction hreach with
  | refl => exact ⟨hnode, hpath⟩
  | tail _ himports ih => exact h.closed _ ih.1 ih.2 _ himports

/-- A new node goes on the path. -/
theorem enter (h : view.Settled ancestors expanded) (hnew : node ∉ expanded) :
    view.Settled (node :: ancestors) (node :: expanded) where
  closed other hother hpath target himports := by
    obtain ⟨hne, hpath⟩ := List.ne_and_not_mem_of_not_mem_cons hpath
    obtain ⟨hmem, hnot⟩ := h.closed other (List.mem_of_ne_of_mem hne hother) hpath target himports
    refine ⟨List.mem_cons_of_mem node hmem, List.not_mem_cons_of_ne_of_not_mem ?_ hnot⟩
    rintro rfl
    exact hnew hmem
  acyclic other hother hpath := by
    obtain ⟨hne, hpath⟩ := List.ne_and_not_mem_of_not_mem_cons hpath
    exact h.acyclic other (List.mem_of_ne_of_mem hne hother) hpath

/-- **A node leaves the path when all that it imports has left it.** -/
theorem leave (h : view.Settled (node :: ancestors) expanded)
    (himported : ∀ target, view.graph.Imports node target →
      target ∈ expanded ∧ target ∉ node :: ancestors) : view.Settled ancestors expanded where
  closed other hother hpath target himports := by
    by_cases hnode : other = node
    · subst hnode
      obtain ⟨hmem, hnot⟩ := himported target himports
      exact ⟨hmem, fun h => hnot (List.mem_cons_of_mem _ h)⟩
    · obtain ⟨hmem, hnot⟩ := h.closed other hother
        (List.not_mem_cons_of_ne_of_not_mem hnode hpath) target himports
      exact ⟨hmem, fun h => hnot (List.mem_cons_of_mem _ h)⟩
  acyclic other hother hpath := by
    by_cases hnode : other = node
    · subst hnode
      intro hcycle
      -- what it imports does not lead back to the path
      obtain ⟨target, himports, hback⟩ := Relation.TransGen.head'_iff.mp hcycle
      obtain ⟨hmem, hnot⟩ := himported target himports
      exact (h.reach hmem hnot hback).2 List.mem_cons_self
    · exact h.acyclic other hother (List.not_mem_cons_of_ne_of_not_mem hnode hpath)

/-- Nothing changes where a node is opened once more. -/
theorem again (h : view.Settled ancestors expanded) (hold : node ∈ expanded) :
    view.Settled ancestors (node :: expanded) := by
  have hsame : ∀ other, other ∈ node :: expanded ↔ other ∈ expanded := by
    intro other
    rw [List.mem_cons]
    exact or_iff_right_of_imp fun heq => heq ▸ hold
  constructor
  · intro other hother hpath target himports
    rw [hsame] at hother ⊢
    exact h.closed other hother hpath target himports
  · intro other hother
    exact h.acyclic other ((hsame other).mp hother)

end Settled

/-- **Drawing without a mark for a cycle settles the nodes that are drawn.** -/
theorem Drawn.settled
    (h : view.Drawn ancestors levels nothingFollows nodes expanded lines expanded')
    (hsettled : view.Settled ancestors expanded) (hmarks : ∀ line ∈ lines, line.mark ≠ .cycle) :
    view.Settled ancestors expanded' ∧ ∀ node ∈ nodes, node ∈ expanded' ∧ node ∉ ancestors := by
  induction h with
  | nil => exact ⟨hsettled, List.forall_mem_nil _⟩
  | marked hplace hmark others ih =>
      obtain ⟨hline, hrest⟩ := List.forall_mem_cons.mp hmarks
      rw [mark_lineOf, Ne, markOf_eq_cycle_iff] at hline
      obtain ⟨hothers, hdrawn⟩ := ih hsettled hrest
      refine ⟨hothers, List.forall_mem_cons.mpr ⟨⟨others.subset ?_, hline⟩, hdrawn⟩⟩
      by_contra hnew
      exact hmark (markOf_eq_none_iff.mpr ⟨hline, fun h => absurd h hnew⟩)
  | @opened ancestors _ _ node _ expanded between _ inner lines _ hplace hmark below others ihbelow
      ihothers =>
      obtain ⟨hpath, hlisted⟩ := markOf_eq_none_iff.mp hmark
      obtain ⟨-, hrest⟩ := List.forall_mem_cons.mp hmarks
      have hinner : ∀ line ∈ inner, line.mark ≠ .cycle := fun line hline =>
        hrest line (List.mem_append_left _ (List.mem_append_left _ hline))
      have hlines : ∀ line ∈ lines, line.mark ≠ .cycle := fun line hline =>
        hrest line (List.mem_append_right _ hline)
      have hbetween : view.Settled ancestors between := by
        by_cases hold : node ∈ expanded
        · -- nothing is drawn below a node that is opened once more
          rw [(entriesOf_eq_nil_iff.mp (hlisted hold)).1] at below
          cases below
          exact hsettled.again hold
        · obtain ⟨hbelow, himported⟩ := ihbelow (hsettled.enter hold) hinner
          exact hbelow.leave fun target himports =>
            himported target (ImportGraph.mem_importsOf.mpr himports)
      obtain ⟨hothers, hdrawn⟩ := ihothers hbetween hlines
      refine ⟨hothers, List.forall_mem_cons.mpr ⟨⟨?_, hpath⟩, hdrawn⟩⟩
      exact others.subset (below.subset List.mem_cons_self)

/-! ## All trees -/

/-- Every node of a forest stands at the end of a chain. -/
theorem Forest.chain {trees : List (List DependencyLine)} (h : view.Forest trees expanded) :
    ∀ line ∈ joined trees, ∀ node ∈ line.node?, view.Chain (node :: line.ancestors) := by
  induction h with
  | nil => exact List.forall_mem_nil _
  | plant forest hconnected hnew drawn ih =>
      intro line hline
      rcases mem_joined_append.mp hline with hline | hline | ⟨rfl, -⟩
      · exact ih line hline
      · exact drawn.chain (List.forall_mem_singleton.mpr (List.IsChain.singleton _)) line hline
      · rintro node ⟨⟩

/-- Where no line is marked for a cycle every node is settled. -/
theorem Forest.settled {trees : List (List DependencyLine)} (h : view.Forest trees expanded)
    (hmarks : ∀ line ∈ joined trees, line.mark ≠ .cycle) : view.Settled [] expanded := by
  induction h with
  | nil => exact ⟨List.forall_mem_nil _, List.forall_mem_nil _⟩
  | plant forest hconnected hnew drawn ih =>
      have hforest := ih fun line hline =>
        hmarks line (mem_joined_append.mpr (Or.inl hline))
      exact (drawn.settled hforest fun line hline =>
        hmarks line (mem_joined_append.mpr (Or.inr (Or.inl hline)))).1

theorem exists_cycle_iff (hclosed : view.graph.Closed) :
    (∃ line ∈ view.lines, line.mark = .cycle) ↔ view.graph.HasCycle := by
  obtain ⟨trees, expanded, forest, hlines, hexpanded⟩ := exists_forest hclosed
  rw [hlines]
  constructor
  · rintro ⟨line, hline, hmark⟩
    obtain ⟨before, after, heq⟩ := List.append_of_mem hline
    have hfaithful := forest.accounted.faithful before line after heq
    obtain ⟨node, hnode, hancestor⟩ := hfaithful.cycle.mp hmark
    exact ⟨node, (forest.chain line hline node hnode).transGen hancestor⟩
  · rintro ⟨node, hcycle⟩
    by_contra hnone
    have hsettled := forest.settled fun line hline hmark => hnone ⟨line, hline, hmark⟩
    -- the node imports something, so it is expanded in the end
    obtain ⟨target, himports, -⟩ := Relation.TransGen.head'_iff.mp hcycle
    have hconnected : node ∈ view.graph.connected := ImportGraph.mem_connected_iff.mpr
      (Or.inl (ImportGraph.importsOf_ne_nil_iff.mpr ⟨target, himports⟩))
    exact hsettled.acyclic node ((hexpanded node).mpr hconnected) List.not_mem_nil hcycle

end DependencyView

/-! ## The trees of a report -/

/-- **Some line of the import trees is marked for a cycle exactly if the graph has a cycle.** -/
theorem dependencyLines_cycle_iff (report : Report) (includeUnresolved : Bool) :
    (∃ line ∈ dependencyLines report includeUnresolved, line.mark = .cycle) ↔
      report.graph.HasCycle :=
  DependencyView.exists_cycle_iff report.closed_graph

end Render

end SourceAtlas
