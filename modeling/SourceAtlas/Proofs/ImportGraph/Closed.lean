/-
# SourceAtlas.Proofs.ImportGraph.Closed — edges go from node to node.

A graph keeps its nodes apart from its edges, and nothing in its type ties the two together.  In a
closed graph (`ImportGraph.Closed`) whatever an edge or a missing import speaks of is a node, and no
edge comes back to where it starts.  Adding keeps a graph closed, whatever is added; the graph that
a report tells of is built by adding, so it is closed for every report (`Report.closed_graph`), and
its edges are those of the report that lead somewhere else (`Report.mem_edges_graph`).
-/
import SourceAtlas.Proofs.ImportGraph.Links

namespace SourceAtlas

namespace ImportGraph

/-! ## Closed graphs -/

/-- **`Closed graph`** — the ends of every edge are two nodes, and whoever misses something is a
node. -/
structure Closed (graph : ImportGraph) : Prop where
  source : ∀ edge ∈ graph.edges, edge.source ∈ graph.nodes
  target : ∀ edge ∈ graph.edges, edge.target ∈ graph.nodes
  apart : ∀ edge ∈ graph.edges, edge.source ≠ edge.target
  missing : ∀ missing ∈ graph.missing, missing.source ∈ graph.nodes

theorem closed_empty : Closed empty where
  source _ hedge := absurd hedge List.not_mem_nil
  target _ hedge := absurd hedge List.not_mem_nil
  apart _ hedge := absurd hedge List.not_mem_nil
  missing _ hmissing := absurd hmissing List.not_mem_nil

namespace Closed

variable {graph : ImportGraph}

theorem addNode (h : graph.Closed) (node : String) : (graph.addNode node).Closed where
  source edge hedge := OrderedSet.mem_insert.mpr (Or.inr (h.source edge hedge))
  target edge hedge := OrderedSet.mem_insert.mpr (Or.inr (h.target edge hedge))
  apart := h.apart
  missing missing hmissing := OrderedSet.mem_insert.mpr (Or.inr (h.missing missing hmissing))

theorem addEdge (h : graph.Closed) (source target : String) :
    (graph.addEdge source target).Closed := by
  by_cases heq : source = target
  · unfold ImportGraph.addEdge
    rw [if_pos heq]
    exact h
  · have hnodes : ∀ node, node ∈ (graph.addEdge source target).nodes ↔
        node = target ∨ node = source ∨ node ∈ graph.nodes := by
      intro node
      unfold ImportGraph.addEdge
      rw [if_neg heq]
      simp only [OrderedSet.mem_insert]
    constructor
    · intro edge hedge
      rw [hnodes]
      rcases mem_edges_addEdge.mp hedge with hedge | ⟨-, rfl⟩
      · exact Or.inr (Or.inr (h.source edge hedge))
      · exact Or.inr (Or.inl rfl)
    · intro edge hedge
      rw [hnodes]
      rcases mem_edges_addEdge.mp hedge with hedge | ⟨-, rfl⟩
      · exact Or.inr (Or.inr (h.target edge hedge))
      · exact Or.inl rfl
    · intro edge hedge
      rcases mem_edges_addEdge.mp hedge with hedge | ⟨hne, rfl⟩
      · exact h.apart edge hedge
      · exact hne
    · intro missing hmissing
      rw [missing_addEdge] at hmissing
      exact (hnodes _).mpr (Or.inr (Or.inr (h.missing missing hmissing)))

theorem addMissing (h : graph.Closed) (source specifier : String) :
    (graph.addMissing source specifier).Closed where
  source edge hedge := OrderedSet.mem_insert.mpr (Or.inr (h.source edge hedge))
  target edge hedge := OrderedSet.mem_insert.mpr (Or.inr (h.target edge hedge))
  apart := h.apart
  missing missing hmissing := by
    rcases OrderedSet.mem_insert.mp hmissing with rfl | hmissing
    · exact OrderedSet.mem_insert.mpr (Or.inl rfl)
    · exact OrderedSet.mem_insert.mpr (Or.inr (h.missing missing hmissing))

end Closed

/-! ## Neighbours -/

theorem importsOf_ne_nil_iff {graph : ImportGraph} {source : String} :
    graph.importsOf source ≠ [] ↔ ∃ target, ⟨source, target⟩ ∈ graph.edges := by
  constructor
  · intro hne
    obtain ⟨target, htarget⟩ := List.exists_mem_of_ne_nil _ hne
    exact ⟨target, mem_importsOf.mp htarget⟩
  · rintro ⟨target, hedge⟩
    exact List.ne_nil_of_mem (mem_importsOf.mpr hedge)

/-- A node is connected exactly if it imports something or something imports it. -/
theorem mem_connected_iff {graph : ImportGraph} {node : String} :
    node ∈ graph.connected ↔
      graph.importsOf node ≠ [] ∨ ∃ source, ⟨source, node⟩ ∈ graph.edges := by
  unfold connected
  rw [OrderedSet.mem_ofList, List.mem_flatMap, importsOf_ne_nil_iff]
  constructor
  · rintro ⟨⟨source, target⟩, hedge, hnode⟩
    rcases List.mem_pair.mp hnode with rfl | rfl
    · exact Or.inl ⟨target, hedge⟩
    · exact Or.inr ⟨source, hedge⟩
  · rintro (⟨target, hedge⟩ | ⟨source, hedge⟩)
    · exact ⟨_, hedge, List.mem_cons_self⟩
    · exact ⟨_, hedge, List.mem_cons_of_mem _ List.mem_cons_self⟩

/-- A node is a root exactly if nothing imports it. -/
theorem mem_roots_iff {graph : ImportGraph} {node : String} :
    node ∈ graph.roots ↔ node ∈ graph.nodes ∧ ¬ ∃ source, ⟨source, node⟩ ∈ graph.edges := by
  unfold roots
  rw [OrderedSet.mem_filter, Bool.not_eq_true', ← Bool.not_eq_true, List.any_eq_true]
  refine and_congr_right fun _ => not_congr ?_
  constructor
  · rintro ⟨⟨source, target⟩, hedge, heq⟩
    cases eq_of_beq heq
    exact ⟨source, hedge⟩
  · rintro ⟨source, hedge⟩
    exact ⟨_, hedge, beq_self_eq_true node⟩

theorem importersOf_eq_nil_iff {graph : ImportGraph} {target : String} :
    graph.importersOf target = [] ↔ ¬ ∃ source, ⟨source, target⟩ ∈ graph.edges := by
  rw [List.eq_nil_iff_forall_not_mem]
  simp only [mem_importersOf, not_exists, OrderedSet.mem_def]

/-- The imported-by lists are those of the nodes. -/
theorem mem_inboundIndex_iff {graph : ImportGraph} {node : String} {sources : List String} :
    (node, sources) ∈ graph.inboundIndex ↔
      node ∈ graph.nodes ∧ graph.importersOf node = sources := by
  unfold inboundIndex
  rw [List.mem_map]
  constructor
  · rintro ⟨_, hnode, heq⟩
    cases heq
    exact ⟨hnode, rfl⟩
  · rintro ⟨hnode, rfl⟩
    exact ⟨node, hnode, rfl⟩

theorem missingOf_increasing (graph : ImportGraph) (source : String) :
    (graph.missingOf source).Pairwise (· < ·) :=
  graph.missing.increasing_second (fun _ _ h => h) source

end ImportGraph

/-! ## The graph of a report -/

namespace Report

open ImportGraph

/-- **The graph that a report tells of is closed**, whatever the report holds. -/
theorem closed_graph (report : Report) : report.graph.Closed := by
  unfold graph
  refine List.foldlRecOn _ _ ?_ fun graph hgraph row _ => ?_
  · refine List.foldlRecOn _ _ ?_ fun graph hgraph edge _ => hgraph.addEdge _ _
    exact List.foldlRecOn _ _ closed_empty fun graph hgraph node _ => hgraph.addNode _
  · exact List.foldlRecOn _ _ hgraph fun graph hgraph specifier _ => hgraph.addMissing _ _

/-- The edges of the graph are those of the report that do not come back to where they start. -/
theorem mem_edges_graph {report : Report} {edge : Edge} :
    edge ∈ report.graph.edges ↔ edge ∈ report.graphEdges ∧ edge.source ≠ edge.target := by
  have hnodes : edge ∉ (report.graphNodes.foldl (fun g node => g.addNode node.id) empty).edges :=
    List.foldlRecOn (motive := fun g : ImportGraph => edge ∉ g.edges) _ _ List.not_mem_nil
      fun g hg _ _ => hg
  have hedges : ∀ start : ImportGraph,
      edge ∈ (report.graphEdges.foldl (fun g e => g.addEdge e.source e.target) start).edges ↔
        edge ∈ start.edges ∨ ∃ e ∈ report.graphEdges, e.source ≠ e.target ∧
          edge = ⟨e.source, e.target⟩ :=
    fun start => foldl_holds_iff (fun g => edge ∈ g.edges)
      (fun g e => @mem_edges_addEdge g e.source e.target edge) _ start
  -- what is missing adds no edge
  have hgraph : report.graph.edges =
      (report.graphEdges.foldl (fun g e => g.addEdge e.source e.target)
        (report.graphNodes.foldl (fun g node => g.addNode node.id) empty)).edges :=
    List.foldlRecOn (motive := fun g : ImportGraph => g.edges = _) report.unresolved _ rfl
      fun g hg row _ => List.foldlRecOn (motive := fun g : ImportGraph => g.edges = _) row.2 _ hg
        fun g hg _ _ => hg
  rw [hgraph, hedges]
  constructor
  · rintro (hedge | ⟨e, he, hne, rfl⟩)
    · exact absurd hedge hnodes
    · exact ⟨he, hne⟩
  · rintro ⟨hedge, hne⟩
    exact Or.inr ⟨edge, hedge, hne, rfl⟩

end Report

end SourceAtlas
