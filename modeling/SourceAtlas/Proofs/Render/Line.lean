/-
# SourceAtlas.Proofs.Render.Line — what a line of the import trees tells.

Lines are kept as data, so what a line tells is read off it and not off its text: the nodes above
it, the node it stands for with its place and its mark, the node it expands, and what it says of the
node it stands below (`DependencyLine.entryOf?`).

Some of this depends on the lines before a line.  `EachAfter` speaks of every line together with
what comes before it, and takes lists of lines apart from the left.
-/
import SourceAtlas.Render.Dependency

namespace SourceAtlas.Render

/-- What is listed below a node. -/
inductive Entry where
  | file (node : String)
  | missing (specifier : String)
  deriving DecidableEq, Repr

namespace DependencyLine

/-- The nodes above a line, the nearest first. -/
def ancestors : DependencyLine → List String
  | gap => []
  | head _ _ => []
  | item ancestors _ _ _ => ancestors
  | missing ancestors _ _ => ancestors

/-- The node that a line stands for. -/
def node? : DependencyLine → Option String
  | gap => none
  | head node _ => some node
  | item _ node _ _ => some node
  | missing _ _ _ => none

/-- The mark of a line; what stands for no node has none. -/
def mark : DependencyLine → Mark
  | gap => .none
  | head _ mark => mark
  | item _ _ _ mark => mark
  | missing _ _ _ => .none

/-- The place of a line below its parent. -/
def place? : DependencyLine → Option Place
  | gap => none
  | head _ _ => none
  | item _ _ place _ => some place
  | missing _ _ place => some place

/-- The node that a line expands: the one it stands for, unless that is marked. -/
def opens? (line : DependencyLine) : Option String :=
  if line.mark = .none then line.node? else none

/-- What a line says of the node it stands below. -/
def entry? : DependencyLine → Option Entry
  | gap => none
  | head _ _ => none
  | item _ node _ _ => some (.file node)
  | missing _ specifier _ => some (.missing specifier)

/-- What a line says of a node: something only if it stands right below it. -/
def entryOf? (source : String) (line : DependencyLine) : Option Entry :=
  if line.ancestors.head? = some source then line.entry? else none

/-- The edge that a line stands for, from the node it stands below. -/
def edge? : DependencyLine → Option Edge
  | item (source :: _) node _ _ => some ⟨source, node⟩
  | _ => none

theorem mark_of_node?_eq_none {line : DependencyLine} (h : line.node? = none) :
    line.mark = .none := by
  cases line with
  | gap => rfl
  | head node mark => cases h
  | item ancestors node place mark => cases h
  | missing ancestors specifier place => rfl

end DependencyLine

namespace DependencyView

open DependencyLine

/-- What is listed below a node that is expanded: its imports and then what it misses. -/
def entriesOf (view : DependencyView) (node : String) : List Entry :=
  (view.graph.importsOf node).map .file ++ (view.missingOf node).map .missing

theorem entriesOf_eq_nil_iff {view : DependencyView} {node : String} :
    view.entriesOf node = [] ↔ view.graph.importsOf node = [] ∧ view.missingOf node = [] := by
  simp [entriesOf]

/-! ## Marks -/

section

variable {view : DependencyView} {ancestors expanded : List String} {node : String}

theorem markOf_eq : view.markOf ancestors expanded node =
    if node ∈ ancestors then .cycle
    else if node ∈ expanded ∧ view.entriesOf node ≠ [] then .seen
    else .none := by
  have hentries : (!((view.graph.importsOf node).isEmpty && (view.missingOf node).isEmpty)) = true ↔
      view.entriesOf node ≠ [] := by
    rw [Bool.not_eq_true', ← Bool.not_eq_true, Bool.and_eq_true, List.isEmpty_iff, List.isEmpty_iff,
      ← entriesOf_eq_nil_iff]
  unfold markOf
  simp only [Bool.and_eq_true, hentries, List.contains_iff_mem]

theorem markOf_eq_cycle_iff : view.markOf ancestors expanded node = .cycle ↔ node ∈ ancestors := by
  rw [markOf_eq]
  grind

theorem markOf_eq_seen_iff : view.markOf ancestors expanded node = .seen ↔
    node ∉ ancestors ∧ node ∈ expanded ∧ view.entriesOf node ≠ [] := by
  rw [markOf_eq]
  grind

theorem markOf_eq_none_iff : view.markOf ancestors expanded node = .none ↔
    node ∉ ancestors ∧ (node ∈ expanded → view.entriesOf node = []) := by
  rw [markOf_eq]
  grind

end

/-! ## The lines of nodes -/

/-- The place of a node below its ancestors; without ancestors it is the head of a tree. -/
def placeIn (ancestors : List String) (levels : List Bool) (isLast : Bool) : Option Place :=
  match ancestors with
  | [] => none
  | _ :: _ => some ⟨levels, isLast⟩

section

variable {ancestors : List String} {levels : List Bool} {isLast : Bool} {node source : String}
  {place : Option Place} {mark : Mark}

@[simp] theorem node?_lineOf : (lineOf ancestors node place mark).node? = some node := by
  cases place <;> rfl

@[simp] theorem mark_lineOf : (lineOf ancestors node place mark).mark = mark := by
  cases place <;> rfl

@[simp] theorem place?_lineOf : (lineOf ancestors node place mark).place? = place := by
  cases place <;> rfl

@[simp] theorem opens?_lineOf :
    (lineOf ancestors node place mark).opens? = if mark = .none then some node else none := by
  rw [opens?, mark_lineOf, node?_lineOf]

theorem ancestors_lineOf (hplace : place = placeIn ancestors levels isLast) :
    (lineOf ancestors node place mark).ancestors = ancestors := by
  subst hplace
  cases ancestors <;> rfl

theorem suffix_lineOf (hplace : place = placeIn ancestors levels isLast) :
    ancestors <:+ (lineOf ancestors node place mark).ancestors :=
  ⟨[], (ancestors_lineOf hplace).symm⟩

/-- A node is listed below the nearest of its ancestors. -/
theorem entryOf?_lineOf_cons (hplace : place = placeIn ancestors levels isLast)
    (lines : List DependencyLine) :
    (lineOf ancestors node place mark :: lines).filterMap (entryOf? source) =
      (if ancestors.head? = some source then [.file node] else [])
        ++ lines.filterMap (entryOf? source) := by
  have hentry : (lineOf ancestors node place mark).entryOf? source =
      if ancestors.head? = some source then some (.file node) else none := by
    rw [entryOf?, ancestors_lineOf hplace]
    subst hplace
    cases ancestors <;> rfl
  rw [List.filterMap_cons, hentry]
  by_cases hsource : ancestors.head? = some source
  · simp only [if_pos hsource, List.singleton_append]
  · simp only [if_neg hsource, List.nil_append]

end

/-! ## The lines of missing imports -/

section

variable {ancestors : List String} {levels : List Bool} {specifiers : List String}

theorem of_mem_missingLines {line : DependencyLine}
    (h : line ∈ missingLines ancestors levels specifiers) :
    line.ancestors = ancestors ∧ line.node? = none ∧
      ∃ isLast, line.place? = some ⟨levels, isLast⟩ := by
  induction specifiers with
  | nil => cases h
  | cons specifier rest ih =>
      rcases List.mem_cons.mp h with rfl | h
      · exact ⟨rfl, rfl, _, rfl⟩
      · exact ih h

theorem suffix_of_mem_missingLines {line : DependencyLine}
    (h : line ∈ missingLines ancestors levels specifiers) : ancestors <:+ line.ancestors :=
  ⟨[], (of_mem_missingLines h).1.symm⟩

theorem opens?_missingLines : (missingLines ancestors levels specifiers).filterMap opens? = [] := by
  rw [List.filterMap_eq_nil_iff]
  intro line hline
  rw [opens?, (of_mem_missingLines hline).2.1, ite_self]

theorem entryOf?_missingLines {source : String} :
    (missingLines ancestors levels specifiers).filterMap (entryOf? source) =
      if ancestors.head? = some source then specifiers.map .missing else [] := by
  induction specifiers with
  | nil => exact (ite_self _).symm
  | cons specifier rest ih =>
      rw [missingLines, List.filterMap_cons, ih]
      by_cases hsource : ancestors.head? = some source
      · simp [entryOf?, DependencyLine.ancestors, entry?, hsource]
      · simp [entryOf?, DependencyLine.ancestors, hsource]

end

/-! ## Lines after lines -/

/-- **`EachAfter holds past lines`** — each of the lines has the property, seen after the past and
the lines before it. -/
def EachAfter (holds : List DependencyLine → DependencyLine → Prop)
    (past lines : List DependencyLine) : Prop :=
  ∀ before line after, lines = before ++ line :: after → holds (past ++ before) line

section

variable {holds : List DependencyLine → DependencyLine → Prop}
  {past lines more : List DependencyLine} {line : DependencyLine}

theorem EachAfter.nil : EachAfter holds past [] := by
  intro before line after h
  exact absurd h (by simp)

theorem eachAfter_cons_iff :
    EachAfter holds past (line :: lines) ↔
      holds past line ∧ EachAfter holds (past ++ [line]) lines := by
  constructor
  · intro h
    refine ⟨?_, fun before other after heq => ?_⟩
    · have hline := h [] line lines rfl
      rwa [List.append_nil] at hline
    · rw [List.append_assoc]
      exact h (line :: before) other after (by rw [heq]; rfl)
  · rintro ⟨hline, hlines⟩ before other after heq
    cases before with
    | nil =>
        cases heq
        rwa [List.append_nil]
    | cons first before =>
        obtain ⟨rfl, htail⟩ := List.cons.inj heq
        have hother := hlines before other after htail
        rwa [List.append_assoc] at hother

theorem EachAfter.append (h : EachAfter holds past lines)
    (hmore : EachAfter holds (past ++ lines) more) : EachAfter holds past (lines ++ more) := by
  induction lines generalizing past with
  | nil => rwa [List.append_nil] at hmore
  | cons line lines ih =>
      rw [eachAfter_cons_iff] at h
      rw [List.cons_append, eachAfter_cons_iff]
      refine ⟨h.1, ih h.2 ?_⟩
      rwa [List.append_assoc]

end

end DependencyView

end SourceAtlas.Render
