/-
# SourceAtlas.Proofs.Render.Exact — the import trees show the graph, and nothing twice.

The import trees of a graph can be read back: their lines stand for the edges of the graph, each for
one (`Exact`).  A connected node has what it imports and what it misses listed below it in one place
and appears somewhere, a mark says why nothing stands below a node, and apart from the heads of the
trees and the gaps between them there is nothing else.

That is proved for every report (`dependencyLines_exact`), whatever cycles its graph has, and for
the lines that a text holds of it.
-/
import SourceAtlas.Proofs.Render.Forest
import SourceAtlas.Render.Text

namespace SourceAtlas.Render

open DependencyLine

namespace DependencyView

variable {view : DependencyView}

/-! ## Exact lines -/

/-- **`Exact view lines`** — the lines show the graph as it is. -/
structure Exact (view : DependencyView) (lines : List DependencyLine) : Prop where
  /-- The lines are those of trees that are drawn without a bound on their depth, with gaps between
  them.  Each tree has one head, and all else in it stands below a node. -/
  trees : ∃ trees expanded, view.Forest trees expanded ∧ lines = joined trees ∧ ∀ tree ∈ trees,
    ∃ node below, tree = .head node .none :: below ∧
      ∀ line ∈ below, ∃ source entry, line.entryOf? source = some entry
  /-- Every edge is shown by one line below its source. -/
  edges : (lines.filterMap edge?).Perm view.graph.edges.toList
  /-- Below a connected node stand its imports and then what it misses. -/
  listing : ∀ node ∈ view.graph.connected,
    lines.filterMap (entryOf? node) = view.entriesOf node
  /-- Nothing stands below a node twice. -/
  once : ∀ node, (lines.filterMap (entryOf? node)).Nodup
  /-- Nothing stands below other nodes. -/
  connected : ∀ node, lines.filterMap (entryOf? node) ≠ [] → node ∈ view.graph.connected
  /-- Every connected node appears. -/
  appears : ∀ node ∈ view.graph.connected, ∃ line ∈ lines, line.node? = some node
  /-- Every line stands below the current path and is marked for what came before it. -/
  faithful : ∀ before line after, lines = before ++ line :: after → view.Faithful before line

theorem exists_entryOf? {line : DependencyLine} (h : line.ancestors ≠ []) :
    ∃ source entry, line.entryOf? source = some entry := by
  cases line with
  | gap => exact absurd rfl h
  | head node mark => exact absurd rfl h
  | item ancestors node place mark =>
      obtain ⟨parent, above, rfl⟩ := List.exists_cons_of_ne_nil h
      exact ⟨parent, .file node, if_pos rfl⟩
  | missing ancestors specifier place =>
      obtain ⟨parent, above, rfl⟩ := List.exists_cons_of_ne_nil h
      exact ⟨parent, .missing specifier, if_pos rfl⟩

theorem node?_of_opens? {line : DependencyLine} {node : String} (h : line.opens? = some node) :
    line.node? = some node := by
  unfold opens? at h
  split at h
  · exact h
  · cases h

theorem nodup_entriesOf (node : String) : (view.entriesOf node).Nodup := by
  have hmissing : (view.missingOf node).Nodup := by
    unfold missingOf
    split
    · exact OrderedSet.nodup_of_increasing (view.graph.missingOf_increasing node)
    · exact List.nodup_nil
  have himports := OrderedSet.nodup_of_increasing (view.graph.importsOf_increasing node)
  refine List.Nodup.append (himports.map fun a b h => Entry.file.inj h)
    (hmissing.map fun a b h => Entry.missing.inj h) ?_
  intro entry hfile hmiss
  obtain ⟨target, -, rfl⟩ := List.mem_map.mp hfile
  obtain ⟨specifier, -, h⟩ := List.mem_map.mp hmiss
  cases h

theorem file_mem_entriesOf {source target : String} :
    .file target ∈ view.entriesOf source ↔ ⟨source, target⟩ ∈ view.graph.edges := by
  unfold entriesOf
  rw [List.mem_append, List.mem_map, List.mem_map, OrderedSet.mem_def, ← ImportGraph.mem_importsOf]
  simp

/-- The line of an edge stands below its source and is an entry of it. -/
theorem edge?_eq_some_iff {line : DependencyLine} {source target : String} :
    line.edge? = some ⟨source, target⟩ ↔ line.entryOf? source = some (.file target) := by
  unfold entryOf?
  cases line with
  | gap => simp [edge?, entry?]
  | head node mark => simp [edge?, entry?]
  | item ancestors node place mark =>
      cases ancestors with
      | nil => simp [edge?, DependencyLine.ancestors]
      | cons parent above => simp [edge?, entry?, DependencyLine.ancestors]
  | missing ancestors specifier place => simp [edge?, entry?]

theorem count_edge? (lines : List DependencyLine) (edge : Edge) :
    (lines.filterMap edge?).count edge =
      (lines.filterMap (entryOf? edge.source)).count (.file edge.target) := by
  rw [List.count_filterMap, List.count_filterMap]
  refine List.countP_congr fun line _ => ?_
  rw [beq_iff_eq, beq_iff_eq]
  exact edge?_eq_some_iff

/-- Lines that list the entries of connected nodes, and nothing else, show every edge once. -/
theorem perm_edges {lines : List DependencyLine}
    (hlisting : ∀ node ∈ view.graph.connected, lines.filterMap (entryOf? node) = view.entriesOf node)
    (hconnected : ∀ node, lines.filterMap (entryOf? node) ≠ [] → node ∈ view.graph.connected)
    (honce : ∀ node, (lines.filterMap (entryOf? node)).Nodup) :
    (lines.filterMap edge?).Perm view.graph.edges.toList := by
  rw [List.perm_iff_count]
  intro edge
  rw [count_edge?, (honce edge.source).count,
    (OrderedSet.nodup_of_increasing view.graph.edges.increasing).count]
  by_cases hedge : edge ∈ view.graph.edges.toList
  · have hsource : edge.source ∈ view.graph.connected :=
      ImportGraph.mem_connected_iff.mpr (Or.inl (ImportGraph.importsOf_ne_nil_iff.mpr ⟨_, hedge⟩))
    rw [hlisting edge.source hsource, if_pos (file_mem_entriesOf.mpr hedge), if_pos hedge]
  · have hnone : .file edge.target ∉ lines.filterMap (entryOf? edge.source) := by
      intro hmem
      have hsource := hconnected edge.source (List.ne_nil_of_mem hmem)
      rw [hlisting edge.source hsource, file_mem_entriesOf] at hmem
      exact hedge hmem
    rw [if_neg hnone, if_neg hedge]

theorem exact_lines (hclosed : view.graph.Closed) : view.Exact view.lines := by
  obtain ⟨trees, expanded, forest, hlines, hexpanded⟩ := exists_forest hclosed
  have haccounted := forest.accounted
  rw [← hlines] at haccounted
  have hlisting : ∀ node ∈ view.graph.connected,
      view.lines.filterMap (entryOf? node) = view.entriesOf node := by
    intro node hnode
    rw [haccounted.listing node, if_pos ((hexpanded node).mpr hnode)]
  have hconnected : ∀ node, view.lines.filterMap (entryOf? node) ≠ [] →
      node ∈ view.graph.connected := by
    intro node hne
    rw [haccounted.listing node] at hne
    by_contra hnot
    exact hne (if_neg fun h => hnot ((hexpanded node).mp h))
  have honce : ∀ node, (view.lines.filterMap (entryOf? node)).Nodup := by
    intro node
    rw [haccounted.listing node]
    split
    · exact nodup_entriesOf node
    · exact List.nodup_nil
  refine
    { trees := ⟨trees, expanded, forest, hlines, fun tree htree => ?_⟩
      edges := perm_edges hlisting hconnected honce
      listing := hlisting
      once := honce
      connected := hconnected
      appears := fun node hnode => ?_
      faithful := haccounted.faithful }
  · obtain ⟨node, below, htree, hbelow⟩ := forest.exists_head tree htree
    exact ⟨node, below, htree, fun line hline => exists_entryOf? (hbelow line hline)⟩
  · have hopened := (haccounted.opened node).mp ((hexpanded node).mpr hnode)
    obtain ⟨line, hline, hopens⟩ := List.mem_filterMap.mp hopened
    exact ⟨line, hline, node?_of_opens? hopens⟩

theorem lines_of_edges_eq_nil (h : view.graph.edges.toList = []) : view.lines = [] := by
  have hconnected : view.graph.connected.toList = [] := by
    unfold ImportGraph.connected
    rw [h]
    rfl
  have hheads : view.heads = [] := by
    rw [List.eq_nil_iff_forall_not_mem]
    intro node hnode
    have hmem : node ∈ view.graph.connected.toList := (of_mem_heads hnode).1
    rw [hconnected] at hmem
    cases hmem
  unfold lines
  rw [hconnected, hheads]
  rfl

end DependencyView

/-! ## The trees of a report -/

/-- A report without edges has no import trees. -/
theorem dependencyLines_of_graphEdges_eq_nil {report : Report} (h : report.graphEdges = [])
    (includeUnresolved : Bool) : dependencyLines report includeUnresolved = [] := by
  refine DependencyView.lines_of_edges_eq_nil (List.eq_nil_iff_forall_not_mem.mpr ?_)
  intro edge hedge
  have hmem := (Report.mem_edges_graph.mp hedge).1
  rw [h] at hmem
  cases hmem

/-- A text that shows the import trees holds them behind everything else. -/
theorem textLines_dependencies (report : Report) (includeUnresolved : Bool)
    (connectors : Connectors) (showTree : Bool) :
    textLines report ⟨connectors, showTree, true, includeUnresolved⟩ =
      textLines report ⟨connectors, showTree, false, includeUnresolved⟩
        ++ (if report.graphEdges.isEmpty then [] else ["", "Dependencies:"])
        ++ (dependencyLines report includeUnresolved).map (·.text connectors) := by
  unfold textLines
  by_cases hnil : report.graphEdges = []
  · rw [dependencyLines_of_graphEdges_eq_nil hnil]
    simp [hnil]
  · simp [hnil]

/-- **The import trees of a report show its graph and nothing else**, and a text that shows them
holds them behind everything else. -/
theorem dependencyLines_exact (report : Report) (includeUnresolved : Bool) :
    DependencyView.Exact ⟨report.graph, includeUnresolved⟩
        (dependencyLines report includeUnresolved) ∧
      ∀ connectors showTree, textLines report ⟨connectors, showTree, true, includeUnresolved⟩ =
        textLines report ⟨connectors, showTree, false, includeUnresolved⟩
          ++ (if report.graphEdges.isEmpty then [] else ["", "Dependencies:"])
          ++ (dependencyLines report includeUnresolved).map (·.text connectors) :=
  ⟨DependencyView.exact_lines report.closed_graph, textLines_dependencies report includeUnresolved⟩

/-- Both marks, and a missing import behind the imports of its node. -/
example : DependencyView.lines ⟨((((ImportGraph.empty.addEdge "r" "a").addEdge "r" "b").addEdge
      "a" "b").addEdge "b" "a").addMissing "b" "./x", true⟩ =
    [.head "r" .none, .item ["r"] "a" ⟨[], false⟩ .none, .item ["a", "r"] "b" ⟨[false], true⟩ .none,
      .item ["b", "a", "r"] "a" ⟨[false, true], false⟩ .cycle,
      .missing ["b", "a", "r"] "./x" ⟨[false, true], true⟩, .item ["r"] "b" ⟨[], true⟩ .seen] := by
  decide

end SourceAtlas.Render
