/-
# SourceAtlas.Proofs.Report.Rebuilt — every specifier is accounted for, and stays so in the report.

`ImportGraph.Accounted` says what a graph of files is: its nodes are the files, and every specifier
of a file is an edge, a missing import, an import of the file itself, or the name of a package, each
in its own case only.  The graph that is built is that (`accounted_ofFiles`).

A report keeps nodes, edges and missing imports as three lists.  Adding them one after another to an
empty graph gives back the graph that they were read off (`graph_of_parts`), so the graph that an
assembled report tells of is the one it was assembled from (`ofSpecifiers_accounted`).
-/
import SourceAtlas.Proofs.ImportGraph.Closed
import SourceAtlas.Proofs.ImportGraph.SelfImport
import SourceAtlas.Proofs.Report.Consistent

namespace SourceAtlas

namespace ImportGraph

variable {root : String} {files : List TrackedFile} {specifiers : SpecifierMap}
  {graph : ImportGraph}

/-! ## Nodes -/

theorem mem_nodes_addEdge {source target node : String} :
    node ∈ (graph.addEdge source target).nodes ↔
      node ∈ graph.nodes ∨ (source ≠ target ∧ (node = source ∨ node = target)) := by
  unfold addEdge
  split
  · rename_i heq
    simp [heq]
  · rename_i hne
    simp only [OrderedSet.mem_insert]
    constructor
    · rintro (h | h | h)
      · exact Or.inr ⟨hne, Or.inr h⟩
      · exact Or.inr ⟨hne, Or.inl h⟩
      · exact Or.inl h
    · rintro (h | ⟨-, h | h⟩)
      · exact Or.inr (Or.inr h)
      · exact Or.inr (Or.inl h)
      · exact Or.inl h

theorem mem_nodes_addMissing {source specifier node : String} :
    node ∈ (graph.addMissing source specifier).nodes ↔ node ∈ graph.nodes ∨ node = source := by
  show node ∈ graph.nodes.insert source ↔ _
  rw [OrderedSet.mem_insert]
  exact or_comm

/-- Where the files are the nodes, taking in a specifier of a file adds none. -/
theorem mem_nodes_addSpecifier {file : TrackedFile} (hfile : file ∈ files)
    (h : ∀ node, node ∈ graph.nodes ↔ node ∈ files.map (·.path)) (specifier node : String) :
    node ∈ (addSpecifier (PathIndex.ofFiles root (files.map (·.path))) root file graph
        specifier).nodes ↔ node ∈ files.map (·.path) := by
  have hpath : file.path ∈ files.map (·.path) := List.mem_map_of_mem hfile
  unfold addSpecifier
  split
  · rename_i target hresolve
    obtain ⟨key, hfind⟩ := exists_find?_of_resolve? hresolve
    have htarget := (PathIndex.find?_ofFiles_mem hfind).1
    rw [mem_nodes_addEdge, h]
    refine ⟨?_, Or.inl⟩
    rintro (hnode | ⟨-, rfl | rfl⟩)
    · exact hnode
    · exact hpath
    · exact htarget
  · split
    · rw [mem_nodes_addMissing, h]
      refine ⟨?_, Or.inl⟩
      rintro (hnode | rfl)
      · exact hnode
      · exact hpath
    · exact h node

theorem mem_nodes_foldl_addNode {α : Type} {name : α → String} {items : List α} {node : String} :
    node ∈ (items.foldl (fun g item => g.addNode (name item)) graph).nodes ↔
      node ∈ graph.nodes ∨ node ∈ items.map name := by
  have hstep : ∀ (g : ImportGraph) (item : α),
      node ∈ (g.addNode (name item)).nodes ↔ node ∈ g.nodes ∨ node = name item :=
    fun g item => OrderedSet.mem_insert.trans or_comm
  rw [foldl_holds_iff (fun g : ImportGraph => node ∈ g.nodes) hstep, List.mem_map]
  simp only [eq_comm]

/-- **The nodes of a graph of files are the files.** -/
theorem mem_nodes_ofFiles (node : String) :
    node ∈ (ofFiles root files specifiers).nodes ↔ node ∈ files.map (·.path) := by
  unfold ofFiles
  simp only
  -- the files are the nodes before the first specifier is taken in, and after each
  revert node
  refine List.foldlRecOn
    (motive := fun g : ImportGraph => ∀ node, node ∈ g.nodes ↔ node ∈ files.map (·.path)) _ _
    (fun node => ?_) fun graph hgraph file hfile => ?_
  · rw [mem_nodes_foldl_addNode]
    exact or_iff_right List.not_mem_nil
  · exact List.foldlRecOn
      (motive := fun g : ImportGraph => ∀ node, node ∈ g.nodes ↔ node ∈ files.map (·.path)) _ _
      hgraph fun graph hgraph specifier _ => mem_nodes_addSpecifier hfile hgraph specifier

/-! ## Specifiers -/

/-- **`Accounted root files specifiers graph`** — the graph tells what becomes of every specifier of
the files, and nothing else. -/
structure Accounted (root : String) (files : List TrackedFile) (specifiers : SpecifierMap)
    (graph : ImportGraph) : Prop where
  nodes : ∀ node, node ∈ graph.nodes ↔ node ∈ files.map (·.path)
  /-- Edges go from file to file, and a missing import is one of a file. -/
  closed : graph.Closed
  /-- A file has an edge to what a specifier of it resolves to, unless that is the file itself. -/
  edges : ∀ file ∈ files, ∀ target, ⟨file.path, target⟩ ∈ graph.edges ↔
    ∃ specifier ∈ specifiers.of file.path,
      resolve? (PathIndex.ofFiles root (files.map (·.path))) root (Path.join root file.path)
          file.language specifier = some target ∧
        target ≠ file.path
  /-- A file misses those of its specifiers that point into the tree and resolve to nothing. -/
  missing : ∀ file ∈ files, ∀ specifier, ⟨file.path, specifier⟩ ∈ graph.missing ↔
    specifier ∈ specifiers.of file.path ∧
      resolve? (PathIndex.ofFiles root (files.map (·.path))) root (Path.join root file.path)
          file.language specifier = none ∧
        isLocal file.language specifier = true
  /-- A specifier that leads to a file is not missing, and it is an edge unless the file imports
  itself. -/
  once : ∀ file ∈ files, ∀ specifier ∈ specifiers.of file.path, ∀ target,
    resolve? (PathIndex.ofFiles root (files.map (·.path))) root (Path.join root file.path)
        file.language specifier = some target →
      ⟨file.path, specifier⟩ ∉ graph.missing ∧
        (target = file.path ∨ ⟨file.path, target⟩ ∈ graph.edges)

theorem closed_ofFiles : (ofFiles root files specifiers).Closed where
  source _ hedge := (mem_nodes_ofFiles _).mpr (ends_of_mem_edges hedge).1
  target _ hedge := (mem_nodes_ofFiles _).mpr (ends_of_mem_edges hedge).2.1
  apart _ hedge := (ends_of_mem_edges hedge).2.2
  missing missing hmissing := by
    obtain ⟨file, hfile, specifier, -, -, -, rfl⟩ := mem_missing_ofFiles.mp hmissing
    exact (mem_nodes_ofFiles _).mpr (List.mem_map_of_mem hfile)

/-- A file misses what its own specifiers lack. -/
theorem mem_missing_of_source (distinct : (files.map (·.path)).Nodup) {file : TrackedFile}
    (hfile : file ∈ files) {specifier : String} :
    ⟨file.path, specifier⟩ ∈ (ofFiles root files specifiers).missing ↔
      specifier ∈ specifiers.of file.path ∧
        resolve? (PathIndex.ofFiles root (files.map (·.path))) root (Path.join root file.path)
            file.language specifier = none ∧
          isLocal file.language specifier = true := by
  rw [mem_missing_ofFiles]
  constructor
  · rintro ⟨other, hother, specifier', hspecifier, hresolve, hlocal, heq⟩
    obtain ⟨hpath, rfl⟩ := Missing.mk.inj heq
    have hsame : other = file := List.inj_on_of_nodup_map distinct hother hfile hpath.symm
    rw [hsame] at hspecifier hresolve hlocal
    exact ⟨hspecifier, hresolve, hlocal⟩
  · rintro ⟨hspecifier, hresolve, hlocal⟩
    exact ⟨file, hfile, specifier, hspecifier, hresolve, hlocal, rfl⟩

/-- **The graph of different files accounts for their specifiers.** -/
theorem accounted_ofFiles (distinct : (files.map (·.path)).Nodup) :
    Accounted root files specifiers (ofFiles root files specifiers) where
  nodes := mem_nodes_ofFiles
  closed := closed_ofFiles
  edges _ hfile _ := mem_edges_of_source distinct hfile
  missing _ hfile _ := mem_missing_of_source distinct hfile
  once := by
    intro file hfile specifier hspecifier target hresolve
    constructor
    · intro hmissing
      have hnone := ((mem_missing_of_source distinct hfile).mp hmissing).2.1
      rw [hresolve] at hnone
      cases hnone
    · by_cases hself : target = file.path
      · exact Or.inl hself
      · exact Or.inr ((mem_edges_of_source distinct hfile).mpr
          ⟨specifier, hspecifier, hresolve, hself⟩)

/-! ## Missing imports by their sources -/

theorem mem_missing_addMissing {source specifier : String} {missing : Missing} :
    missing ∈ (graph.addMissing source specifier).missing ↔
      missing ∈ graph.missing ∨ missing = ⟨source, specifier⟩ := by
  show missing ∈ graph.missing.insert _ ↔ _
  rw [OrderedSet.mem_insert]
  exact or_comm

theorem mem_missingOf {source specifier : String} :
    specifier ∈ graph.missingOf source ↔ ⟨source, specifier⟩ ∈ graph.missing := by
  unfold missingOf
  rw [List.mem_map]
  constructor
  · rintro ⟨missing, hmissing, rfl⟩
    obtain ⟨hmem, heq⟩ := List.mem_filter.mp hmissing
    cases missing
    cases eq_of_beq heq
    exact hmem
  · intro h
    exact ⟨_, List.mem_filter.mpr ⟨h, beq_self_eq_true _⟩, rfl⟩

/-- The rows by source hold the missing imports, each in the row of its source. -/
theorem exists_row_missingBySource_iff {missing : Missing} :
    (∃ row ∈ graph.missingBySource, ∃ specifier ∈ row.2, missing = ⟨row.1, specifier⟩) ↔
      missing ∈ graph.missing := by
  unfold missingBySource
  constructor
  · rintro ⟨row, hrow, specifier, hspecifier, rfl⟩
    obtain ⟨source, -, rfl⟩ := List.mem_map.mp hrow
    exact mem_missingOf.mp hspecifier
  · intro h
    have hsource : missing.source ∈ OrderedSet.ofList (graph.missing.toList.map (·.source)) :=
      OrderedSet.mem_ofList.mpr (List.mem_map_of_mem h)
    exact ⟨_, List.mem_map_of_mem hsource, missing.specifier, mem_missingOf.mpr h, rfl⟩

end ImportGraph

namespace Report

open ImportGraph

variable {report : Report} {graph : ImportGraph}

/-! ## The graph of a report -/

/-- What the graph of a report misses is what its rows tell. -/
theorem mem_missing_graph {missing : Missing} :
    missing ∈ report.graph.missing ↔
      ∃ row ∈ report.unresolved, ∃ specifier ∈ row.2, missing = ⟨row.1, specifier⟩ := by
  -- nodes and edges bring no missing import
  have hnodes : (report.graphNodes.foldl (fun g node => g.addNode node.id) empty).missing =
      empty.missing :=
    List.foldlRecOn (motive := fun g : ImportGraph => g.missing = empty.missing) _ _ rfl
      fun g hg _ _ => hg
  have hedges : ∀ start : ImportGraph,
      (report.graphEdges.foldl (fun g edge => g.addEdge edge.source edge.target) start).missing =
        start.missing :=
    fun start => List.foldlRecOn (motive := fun g : ImportGraph => g.missing = start.missing) _ _ rfl
      fun g hg _ _ => missing_addEdge.trans hg
  unfold Report.graph
  simp only
  rw [foldl_holds_iff (fun g : ImportGraph => missing ∈ g.missing)
    (fun g row => foldl_holds_iff (fun g : ImportGraph => missing ∈ g.missing)
      (fun g specifier => @mem_missing_addMissing g row.1 specifier missing) row.2 g),
    hedges, hnodes]
  exact or_iff_right List.not_mem_nil

/-- The nodes of the graph of a report are those that it lists, and what its edges and its missing
imports speak of. -/
theorem mem_nodes_graph {node : String} :
    node ∈ report.graph.nodes ↔
      (node ∈ report.graphNodes.map (·.id) ∨
        ∃ edge ∈ report.graphEdges, edge.source ≠ edge.target ∧
          (node = edge.source ∨ node = edge.target)) ∨
      ∃ row ∈ report.unresolved, row.2 ≠ [] ∧ node = row.1 := by
  have hrow : ∀ (row : String × List String) (g : ImportGraph),
      node ∈ (row.2.foldl (fun g s => g.addMissing row.1 s) g).nodes ↔
        node ∈ g.nodes ∨ (row.2 ≠ [] ∧ node = row.1) := by
    intro row g
    rw [foldl_holds_iff (fun g : ImportGraph => node ∈ g.nodes)
      (fun g specifier => @mem_nodes_addMissing g row.1 specifier node) row.2 g]
    refine or_congr_right ⟨?_, ?_⟩
    · rintro ⟨specifier, hspecifier, hnode⟩
      exact ⟨List.ne_nil_of_mem hspecifier, hnode⟩
    · rintro ⟨hne, hnode⟩
      obtain ⟨specifier, hspecifier⟩ := List.exists_mem_of_ne_nil _ hne
      exact ⟨specifier, hspecifier, hnode⟩
  unfold Report.graph
  simp only
  rw [foldl_holds_iff (fun g : ImportGraph => node ∈ g.nodes) (fun g row => hrow row g),
    foldl_holds_iff (fun g : ImportGraph => node ∈ g.nodes)
      (fun g edge => @mem_nodes_addEdge g edge.source edge.target node),
    mem_nodes_foldl_addNode]
  exact or_congr_left (or_congr_left (or_iff_right List.not_mem_nil))

/-- **Lists that were read off a graph give it back.** -/
theorem graph_of_parts (closed : graph.Closed)
    (hnodes : ∀ node, node ∈ report.graphNodes.map (·.id) ↔ node ∈ graph.nodes)
    (hedges : report.graphEdges = graph.edges.toList)
    (hunresolved : report.unresolved = graph.missingBySource) : report.graph = graph := by
  have hmissing : ∀ missing, missing ∈ report.graph.missing ↔ missing ∈ graph.missing := by
    intro missing
    rw [mem_missing_graph, hunresolved, exists_row_missingBySource_iff]
  have hedges' : ∀ edge, edge ∈ report.graph.edges ↔ edge ∈ graph.edges := by
    intro edge
    rw [mem_edges_graph, hedges]
    exact and_iff_left_of_imp (closed.apart edge)
  have hnodes' : ∀ node, node ∈ report.graph.nodes ↔ node ∈ graph.nodes := by
    intro node
    rw [mem_nodes_graph, hnodes, hedges, hunresolved]
    constructor
    · rintro ((hnode | ⟨edge, hedge, -, rfl | rfl⟩) | ⟨row, hrow, hne, rfl⟩)
      · exact hnode
      · exact closed.source edge hedge
      · exact closed.target edge hedge
      · obtain ⟨specifier, hspecifier⟩ := List.exists_mem_of_ne_nil _ hne
        exact closed.missing _
          (exists_row_missingBySource_iff.mp ⟨row, hrow, specifier, hspecifier, rfl⟩)
    · exact fun hnode => Or.inl (Or.inl hnode)
  calc report.graph = ⟨report.graph.nodes, report.graph.edges, report.graph.missing⟩ := rfl
    _ = ⟨graph.nodes, graph.edges, graph.missing⟩ := by
      rw [OrderedSet.ext_mem hnodes', OrderedSet.ext_mem hedges', OrderedSet.ext_mem hmissing]

/-! ## Assembled reports -/

variable {root generatedAt : String} {totals : WalkTotals} {analyzedSize : Int}
  {files : List TrackedFile} {specifiers : SpecifierMap} {choice : Choice} {cancelled : Bool}

theorem map_id_of_nodes {nodes : List GraphNode}
    (h : List.Forall₂ (fun file node => nodeOf file = .ok node) files nodes) :
    nodes.map (·.id) = files.map (·.path) := by
  induction h with
  | nil => rfl
  | cons hnode _ ih =>
      unfold nodeOf at hnode
      obtain ⟨sizeMb, -, hnode⟩ := bind_eq_ok.mp hnode
      cases hnode
      rw [List.map_cons, List.map_cons, ih]

/-- An assembled report lists the files as nodes. -/
theorem map_id_of_assemble_ok (h : assemble root generatedAt totals analyzedSize files graph choice
      cancelled = .ok report) :
    (report.graphNodes.map (·.id)).Perm (files.map (·.path)) := by
  unfold assemble at h
  simp only [bind_eq_ok] at h
  obtain ⟨mainSize, -, critical, -, totalMb, -, analyzedMb, -, nodes, hnodes, h⟩ := h
  cases h
  show (nodes.map (·.id)).Perm _
  rw [map_id_of_nodes (forall₂_of_mapM_ok hnodes)]
  exact (List.mergeSort_perm _ _).map _

/-- The graph that a report of files tells of is the graph of the files. -/
theorem graph_of_ofSpecifiers_ok
    (h : ofSpecifiers root generatedAt totals files specifiers choice cancelled = .ok report) :
    report.graph = ImportGraph.ofFiles root files specifiers := by
  obtain ⟨-, -, -, hedges, hunresolved, -⟩ := assemble_ok h
  refine graph_of_parts closed_ofFiles (fun node => ?_) hedges hunresolved
  rw [(map_id_of_assemble_ok h).mem_iff, map_path_finalize, mem_nodes_ofFiles]

/-- **Every specifier is accounted for, in the graph and in the report**: the graph of different
files says what becomes of each of their specifiers and nothing else, and the report gives this very
graph back.  There is no report only where a size cannot be shown or a file cannot be scored. -/
theorem ofSpecifiers_accounted (root generatedAt : String) (totals : WalkTotals)
    (files : List TrackedFile) (specifiers : SpecifierMap) (choice : Choice) (cancelled : Bool)
    (distinct : (files.map (·.path)).Nodup) :
    let graph := ImportGraph.ofFiles root files specifiers
    let finished := files.map graph.finalize
    graph.Accounted root files specifiers ∧
      ((∃ report, ofSpecifiers root generatedAt totals files specifiers choice cancelled =
            .ok report ∧ report.graph = graph) ∨
        ∃ fault, ofSpecifiers root generatedAt totals files specifiers choice cancelled =
            .error fault ∧
          ((∃ size ∈ totals.totalSize :: (files.map (·.size)).foldl (· + ·) 0 ::
                finished.map (·.size), megabytes size = .error fault) ∨
            rankCritical finished (selectMain? finished choice.mainFile) choice.criticalLimit =
              .error fault)) := by
  intro graph finished
  refine ⟨accounted_ofFiles distinct, ?_⟩
  cases hresult : ofSpecifiers root generatedAt totals files specifiers choice cancelled with
  | ok report => exact Or.inl ⟨report, rfl, graph_of_ofSpecifiers_ok hresult⟩
  | error fault => exact Or.inr ⟨fault, rfl, assemble_error hresult⟩

/-- Files that import each other, themselves, a package and what is not there. -/
theorem ofSpecifiers_accounted_of_cycle :
    (cyclicFiles.map (·.path)).Nodup ∧
      let graph := ImportGraph.ofFiles "/p" cyclicFiles cyclicSpecifiers
      let finished := cyclicFiles.map graph.finalize
      graph.Accounted "/p" cyclicFiles cyclicSpecifiers ∧
        ((∃ report, ofSpecifiers "/p" "" ⟨["src/a.ts", "src/b.ts"], 2, 30⟩ cyclicFiles
              cyclicSpecifiers ⟨none, 12⟩ false = .ok report ∧ report.graph = graph) ∨
          ∃ fault, ofSpecifiers "/p" "" ⟨["src/a.ts", "src/b.ts"], 2, 30⟩ cyclicFiles
              cyclicSpecifiers ⟨none, 12⟩ false = .error fault ∧
            ((∃ size ∈ (30 : Int) :: (cyclicFiles.map (·.size)).foldl (· + ·) 0 ::
                  finished.map (·.size), megabytes size = .error fault) ∨
              rankCritical finished (selectMain? finished none) 12 = .error fault)) :=
  ⟨by decide, ofSpecifiers_accounted "/p" "" ⟨["src/a.ts", "src/b.ts"], 2, 30⟩ cyclicFiles
    cyclicSpecifiers ⟨none, 12⟩ false (by decide)⟩

end Report

end SourceAtlas
