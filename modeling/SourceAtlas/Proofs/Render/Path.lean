/-
# SourceAtlas.Proofs.Render.Path — what a line tells is true of the lines before it.

A line carries the nodes above it and a mark, and both speak of lines that stand before it.  The
nodes above it are those of the current path: the nearest was opened by an earlier line, and all
lines since then stand below that line (`CurrentPath`).  The mark says whether the node stands on
that path already, or was expanded elsewhere (`Faithful`).

Both are carried along a drawing together, `Drawn.faithful`.
-/
import SourceAtlas.Proofs.Render.Listing

namespace SourceAtlas.Render.DependencyView

open DependencyLine

/-- **`CurrentPath past ancestors levels`** — after the past lines, the ancestors are the nodes that
are being drawn: one of these lines opens the nearest, stands itself below the others, and has
nothing behind it but lines below the node it opens. -/
def CurrentPath (past : List DependencyLine) (ancestors : List String) (levels : List Bool) :
    Prop :=
  ∃ before opener between parent, past = before ++ opener :: between ∧
    opener.opens? = some parent ∧ ancestors = parent :: opener.ancestors ∧
    levels = Place.below opener.place? ∧ ∀ line ∈ between, ancestors <:+ line.ancestors

/-- **`Faithful view past line`** — the line stands below the current path, and its mark tells how
its node stands to that path and to the past lines. -/
structure Faithful (view : DependencyView) (past : List DependencyLine) (line : DependencyLine) :
    Prop where
  path : ∀ place ∈ line.place?, CurrentPath past line.ancestors place.levels
  cycle : line.mark = .cycle ↔ ∃ node ∈ line.node?, node ∈ line.ancestors
  seen : line.mark = .seen ↔ ∃ node ∈ line.node?, node ∉ line.ancestors ∧
    (view.graph.importsOf node ≠ [] ∨ view.missingOf node ≠ []) ∧
    ∃ earlier ∈ past, earlier.opens? = some node

variable {view : DependencyView} {ancestors nodes expanded expanded' : List String}
  {levels : List Bool} {nothingFollows isLast : Bool} {node : String} {place : Option Place}
  {past lines : List DependencyLine} {line : DependencyLine}

/-! ## The current path -/

theorem CurrentPath.append (h : CurrentPath past ancestors levels)
    (hlines : ∀ line ∈ lines, ancestors <:+ line.ancestors) :
    CurrentPath (past ++ lines) ancestors levels := by
  obtain ⟨before, opener, between, parent, rfl, hopens, hancestors, hlevels, hbetween⟩ := h
  refine ⟨before, opener, between ++ lines, parent, by simp, hopens, hancestors, hlevels, ?_⟩
  intro line hline
  rcases List.mem_append.mp hline with hline | hline
  · exact hbetween line hline
  · exact hlines line hline

/-- A line that opens a node begins the path below it. -/
theorem CurrentPath.of_lineOf (past : List DependencyLine)
    (hplace : place = placeIn ancestors levels isLast) :
    CurrentPath (past ++ [lineOf ancestors node place .none]) (node :: ancestors)
      (Place.below place) := by
  refine ⟨past, _, [], node, rfl, by simp, ?_, by simp, List.forall_mem_nil _⟩
  rw [ancestors_lineOf hplace]

/-- All lines of a drawing stand below its ancestors. -/
theorem Drawn.ancestors_suffix
    (h : view.Drawn ancestors levels nothingFollows nodes expanded lines expanded') :
    ∀ line ∈ lines, ancestors <:+ line.ancestors := by
  induction h with
  | nil => exact List.forall_mem_nil _
  | marked hplace hmark others ih => exact List.forall_mem_cons.mpr ⟨suffix_lineOf hplace, ih⟩
  | @opened ancestors _ _ node _ _ _ _ _ _ _ hplace hmark below others ihbelow ihothers =>
      have hsuffix : ancestors <:+ node :: ancestors := List.suffix_cons node ancestors
      refine List.forall_mem_cons.mpr ⟨suffix_lineOf hplace, fun line hline => ?_⟩
      rcases List.mem_append.mp hline with hline | hline
      · rcases List.mem_append.mp hline with hline | hline
        · exact hsuffix.trans (ihbelow line hline)
        · exact hsuffix.trans (suffix_of_mem_missingLines hline)
      · exact ihothers line hline

/-! ## Faithful lines -/

/-- The expanded nodes are those that past lines open. -/
def OpenedBy (expanded : List String) (past : List DependencyLine) : Prop :=
  ∀ node, node ∈ expanded ↔ node ∈ past.filterMap opens?

theorem OpenedBy.append (h : OpenedBy expanded past)
    (heq : expanded' = (lines.filterMap opens?).reverse ++ expanded) :
    OpenedBy expanded' (past ++ lines) := by
  intro node
  rw [heq, List.filterMap_append, List.mem_append, List.mem_append, List.mem_reverse, h node]
  exact or_comm

theorem faithful_lineOf (hplace : place = placeIn ancestors levels isLast)
    (hpath : ancestors ≠ [] → CurrentPath past ancestors levels) (hpast : OpenedBy expanded past) :
    view.Faithful past (lineOf ancestors node place (view.markOf ancestors expanded node)) where
  path := by
    rw [place?_lineOf, ancestors_lineOf hplace]
    subst hplace
    intro p hp
    cases ancestors with
    | nil => cases hp
    | cons parent above =>
        cases hp
        exact hpath (by simp)
  cycle := by
    rw [mark_lineOf, node?_lineOf, ancestors_lineOf hplace, markOf_eq_cycle_iff]
    simp
  seen := by
    rw [mark_lineOf, node?_lineOf, ancestors_lineOf hplace, markOf_eq_seen_iff, hpast node,
      List.mem_filterMap, Ne, entriesOf_eq_nil_iff, not_and_or]
    simp [and_comm]

theorem faithful_missingLines {specifiers : List String}
    (hpath : CurrentPath past ancestors levels) :
    EachAfter view.Faithful past (missingLines ancestors levels specifiers) := by
  intro before line after heq
  have hbefore : ∀ other ∈ before, ancestors <:+ other.ancestors := by
    intro other hother
    have hmem : other ∈ missingLines ancestors levels specifiers := by
      rw [heq]
      exact List.mem_append_left _ hother
    exact suffix_of_mem_missingLines hmem
  have hmem : line ∈ missingLines ancestors levels specifiers := by
    rw [heq]
    exact List.mem_append_right _ List.mem_cons_self
  obtain ⟨hancestors, hnode, isLast, hplace⟩ := of_mem_missingLines hmem
  have hmark : line.mark = .none := mark_of_node?_eq_none hnode
  refine ⟨?_, ?_, ?_⟩
  · rw [hplace, hancestors]
    rintro place ⟨⟩
    exact hpath.append hbefore
  · simp [hmark, hnode]
  · simp [hmark, hnode]

/-- **Every line of a drawing is faithful** to the lines before it. -/
theorem Drawn.faithful
    (h : view.Drawn ancestors levels nothingFollows nodes expanded lines expanded')
    (hpath : ancestors ≠ [] → CurrentPath past ancestors levels) (hpast : OpenedBy expanded past) :
    EachAfter view.Faithful past lines := by
  induction h generalizing past with
  | nil => exact .nil
  | marked hplace hmark others ih =>
      refine eachAfter_cons_iff.mpr ⟨faithful_lineOf hplace hpath hpast, ih (fun hne => ?_) ?_⟩
      · exact (hpath hne).append (List.forall_mem_singleton.mpr (suffix_lineOf hplace))
      · exact hpast.append (by simp [hmark])
  | @opened ancestors levels nothingFollows node rest expanded between _ inner _ place hplace hmark
      below others ihbelow ihothers =>
      have hline : view.Faithful past (lineOf ancestors node place .none) := by
        rw [← hmark]
        exact faithful_lineOf hplace hpath hpast
      have hsuffix : ancestors <:+ (lineOf ancestors node place .none).ancestors :=
        suffix_lineOf hplace
      have hopened : OpenedBy (node :: expanded) (past ++ [lineOf ancestors node place .none]) :=
        hpast.append (by simp)
      have hbelow : CurrentPath (past ++ [lineOf ancestors node place .none]) (node :: ancestors)
          (Place.below place) := .of_lineOf past hplace
      refine eachAfter_cons_iff.mpr ⟨hline, .append (.append (ihbelow (fun _ => hbelow) hopened)
        (faithful_missingLines (hbelow.append below.ancestors_suffix)))
        (ihothers (fun hne => ?_) ?_)⟩
      · refine ((hpath hne).append (List.forall_mem_singleton.mpr hsuffix)).append ?_
        intro line hline
        refine (List.suffix_cons node ancestors).trans ?_
        rcases List.mem_append.mp hline with hline | hline
        · exact below.ancestors_suffix line hline
        · exact suffix_of_mem_missingLines hline
      · exact hopened.append (by rw [below.expanded_eq]; simp [opens?_missingLines])

end SourceAtlas.Render.DependencyView
