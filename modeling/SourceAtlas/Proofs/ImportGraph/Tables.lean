/-
# SourceAtlas.Proofs.ImportGraph.Tables — tables of sets tell of one graph.

A graph in memory keeps a row of targets for each source and a row of specifiers for each source
that misses some.  Such tables tell of an import graph (`Tables.graph`), and adding to the tables is
adding to that graph (`Tables.graph_addEdge` and its twins).  Whatever the tables are asked they
answer as the graph does: each question goes through the rows in its own way, and the answer is the
one that the set of all edges gives (`Tables.inboundIndex?_eq`, `roots_eq`, `edgeList_eq`,
`connected_eq`, `count_eq`).  The imported-by lists are looked up without a guard, which is safe
because the graph is closed.
-/
import Mathlib.Algebra.BigOperators.Group.List.Basic
import SourceAtlas.ImportGraph.Memory
import SourceAtlas.Proofs.ImportGraph.Closed

namespace SourceAtlas.ImportGraph

namespace Tables

variable {rows : List (String × NameSet)} {key name k x : String}

/-! ## Rows -/

/-- Put a name into the row of another, which is made at the end if it is not there. -/
def insertRow (key name : String) : List (String × NameSet) → List (String × NameSet)
  | [] => [(key, OrderedSet.empty.insert name)]
  | (k, names) :: rest =>
    if k = key then (k, names.insert name) :: rest else (k, names) :: insertRow key name rest

theorem row_cons (first : String × NameSet) (rest : List (String × NameSet)) (k : String) :
    row (first :: rest) k = if k = first.1 then first.2 else row rest k := by
  unfold row
  rw [List.lookup_cons]
  by_cases hk : k = first.1
  · simp [hk]
  · rw [beq_false_of_ne hk, if_neg hk]

/-- Only the row of the key gets the name. -/
theorem mem_row_insertRow :
    x ∈ row (insertRow key name rows) k ↔ x ∈ row rows k ∨ (k = key ∧ x = name) := by
  induction rows with
  | nil =>
      rw [insertRow, row_cons]
      by_cases hk : k = key
      · rw [if_pos hk, OrderedSet.mem_insert]
        simp [hk, row, OrderedSet.empty]
      · rw [if_neg hk]
        simp [hk]
  | cons first rest ih =>
      obtain ⟨own, names⟩ := first
      rw [insertRow]
      split
      · rename_i hown
        subst hown
        rw [row_cons, row_cons]
        by_cases hk : k = own
        · simp only [hk, if_true, OrderedSet.mem_insert, true_and]
          exact or_comm
        · simp [hk]
      · rename_i hown
        rw [row_cons, row_cons]
        by_cases hk : k = own
        · simp [hk, hown]
        · rw [if_neg hk, if_neg hk, ih]

theorem mem_keys_insertRow :
    k ∈ (insertRow key name rows).map (·.1) ↔ k = key ∨ k ∈ rows.map (·.1) := by
  induction rows with
  | nil => simp [insertRow]
  | cons first rest ih =>
      obtain ⟨own, names⟩ := first
      rw [insertRow]
      split
      · rename_i hown
        subst hown
        simp
      · rw [List.map_cons, List.mem_cons, ih, List.map_cons, List.mem_cons]
        exact or_left_comm

theorem nodup_keys_insertRow (h : (rows.map (·.1)).Nodup) :
    ((insertRow key name rows).map (·.1)).Nodup := by
  induction rows with
  | nil => exact List.nodup_singleton _
  | cons first rest ih =>
      obtain ⟨own, names⟩ := first
      obtain ⟨hfirst, hrest⟩ := List.nodup_cons.mp h
      rw [insertRow]
      split
      · exact h
      · rename_i hown
        refine List.nodup_cons.mpr ⟨fun hmem => ?_, ih hrest⟩
        rcases mem_keys_insertRow.mp hmem with heq | hmem
        · exact hown heq
        · exact hfirst hmem

/-- Where keys are distinct, a row is found under its key. -/
theorem row_of_mem (h : (rows.map (·.1)).Nodup) {names : NameSet} (hmem : (k, names) ∈ rows) :
    row rows k = names := by
  unfold row
  rw [lookup_of_nodup h hmem]
  rfl

/-- What is in some row is in the row of its key. -/
theorem mem_row_iff (h : (rows.map (·.1)).Nodup) :
    x ∈ row rows k ↔ ∃ names, (k, names) ∈ rows ∧ x ∈ names := by
  constructor
  · intro hx
    by_cases hk : k ∈ rows.map (·.1)
    · obtain ⟨⟨_, names⟩, hmem, rfl⟩ := List.mem_map.mp hk
      rw [row_of_mem h hmem] at hx
      exact ⟨names, hmem, hx⟩
    · unfold row at hx
      rw [lookup_of_not_mem hk] at hx
      exact absurd hx List.not_mem_nil
  · rintro ⟨names, hmem, hx⟩
    rw [row_of_mem h hmem]
    exact hx

/-- Where keys are distinct, rows are told by their keys. -/
theorem eq_map_row (h : (rows.map (·.1)).Nodup) :
    rows = (rows.map (·.1)).map fun k => (k, row rows k) := by
  rw [List.map_map]
  refine (List.map_id rows).symm.trans (List.map_congr_left fun entry hentry => ?_)
  exact Prod.ext rfl (row_of_mem h hentry).symm

/-! ## The graph of tables -/

/-- All pairs of a key and a name in its row. -/
def pairs {α : Type} (pair : String → String → α) (rows : List (String × NameSet)) : List α :=
  rows.flatMap fun entry => entry.2.toList.map (pair entry.1)

theorem mem_pairs {α : Type} {pair : String → String → α} (h : (rows.map (·.1)).Nodup)
    (hpair : ∀ {a b a' b'}, pair a b = pair a' b' → a = a' ∧ b = b') :
    pair k x ∈ pairs pair rows ↔ x ∈ row rows k := by
  unfold pairs
  rw [List.mem_flatMap, mem_row_iff h]
  constructor
  · rintro ⟨⟨key, names⟩, hmem, hx⟩
    obtain ⟨name, hname, heq⟩ := List.mem_map.mp hx
    obtain ⟨rfl, rfl⟩ := hpair heq
    exact ⟨names, hmem, hname⟩
  · rintro ⟨names, hmem, hx⟩
    exact ⟨(k, names), hmem, List.mem_map_of_mem hx⟩

/-- **`graph tables`** — the import graph that tables tell of. -/
def graph (tables : Tables) : ImportGraph where
  nodes := tables.nodes
  edges := OrderedSet.ofList (pairs Edge.mk tables.edges)
  missing := OrderedSet.ofList (pairs Missing.mk tables.missing)

/-- **`Distinct tables`** — no source has two rows. -/
structure Distinct (tables : Tables) : Prop where
  edges : (tables.edges.map (·.1)).Nodup
  missing : (tables.missing.map (·.1)).Nodup

variable {tables : Tables} {source target specifier node : String}

theorem edge_inj {a b a' b' : String} (h : Edge.mk a b = Edge.mk a' b') : a = a' ∧ b = b' := by
  cases h
  exact ⟨rfl, rfl⟩

theorem missing_inj {a b a' b' : String} (h : Missing.mk a b = Missing.mk a' b') :
    a = a' ∧ b = b' := by
  cases h
  exact ⟨rfl, rfl⟩

theorem mem_edges_graph (h : tables.Distinct) :
    ⟨source, target⟩ ∈ tables.graph.edges ↔ target ∈ row tables.edges source := by
  show _ ∈ OrderedSet.ofList _ ↔ _
  rw [OrderedSet.mem_ofList]
  exact mem_pairs h.edges edge_inj

theorem mem_missing_graph (h : tables.Distinct) :
    ⟨source, specifier⟩ ∈ tables.graph.missing ↔ specifier ∈ row tables.missing source := by
  show _ ∈ OrderedSet.ofList _ ↔ _
  rw [OrderedSet.mem_ofList]
  exact mem_pairs h.missing missing_inj

/-! ## Adding -/

/-- The tables of a new graph. -/
def empty : Tables :=
  ⟨OrderedSet.empty, [], []⟩

/-- Add a node. -/
def addNode (tables : Tables) (node : String) : Tables :=
  { tables with nodes := tables.nodes.insert node }

/-- Add an edge and its ends, unless it goes from a node to itself. -/
def addEdge (tables : Tables) (source target : String) : Tables :=
  if source = target then tables
  else
    { tables with
      nodes := (tables.nodes.insert source).insert target
      edges := insertRow source target tables.edges }

/-- Add a missing import and its source. -/
def addMissing (tables : Tables) (source specifier : String) : Tables :=
  { tables with
    nodes := tables.nodes.insert source
    missing := insertRow source specifier tables.missing }

theorem Distinct.addNode (h : tables.Distinct) (node : String) : (tables.addNode node).Distinct :=
  ⟨h.edges, h.missing⟩

theorem Distinct.addEdge (h : tables.Distinct) (source target : String) :
    (tables.addEdge source target).Distinct := by
  unfold Tables.addEdge
  split
  · exact h
  · exact ⟨nodup_keys_insertRow h.edges, h.missing⟩

theorem Distinct.addMissing (h : tables.Distinct) (source specifier : String) :
    (tables.addMissing source specifier).Distinct :=
  ⟨h.edges, nodup_keys_insertRow h.missing⟩

theorem graph_addNode (node : String) : (tables.addNode node).graph = tables.graph.addNode node :=
  rfl

/-- **Adding an edge to tables is adding it to their graph.** -/
theorem graph_addEdge (h : tables.Distinct) (source target : String) :
    (tables.addEdge source target).graph = tables.graph.addEdge source target := by
  unfold Tables.addEdge ImportGraph.addEdge
  by_cases heq : source = target
  · rw [if_pos heq, if_pos heq]
  · rw [if_neg heq, if_neg heq]
    have hedges : OrderedSet.ofList (pairs Edge.mk (insertRow source target tables.edges)) =
        tables.graph.edges.insert ⟨source, target⟩ := by
      refine OrderedSet.ext_mem fun edge => ?_
      obtain ⟨s, t⟩ := edge
      rw [OrderedSet.mem_ofList, mem_pairs (nodup_keys_insertRow h.edges) edge_inj,
        OrderedSet.mem_insert, mem_edges_graph h, mem_row_insertRow, Edge.mk.injEq]
      exact or_comm
    exact congrArg (ImportGraph.mk _ · _) hedges

/-- **Adding a missing import to tables is adding it to their graph.** -/
theorem graph_addMissing (h : tables.Distinct) (source specifier : String) :
    (tables.addMissing source specifier).graph = tables.graph.addMissing source specifier := by
  have hmissing : OrderedSet.ofList (pairs Missing.mk (insertRow source specifier tables.missing)) =
      tables.graph.missing.insert ⟨source, specifier⟩ := by
    refine OrderedSet.ext_mem fun missing => ?_
    obtain ⟨s, x⟩ := missing
    rw [OrderedSet.mem_ofList, mem_pairs (nodup_keys_insertRow h.missing) missing_inj,
      OrderedSet.mem_insert, mem_missing_graph h, mem_row_insertRow, Missing.mk.injEq]
    exact or_comm
  exact congrArg (ImportGraph.mk _ _ ·) hmissing

/-! ## Looking into the rows -/

/-- **The row of a source is what the graph imports from it.** -/
theorem row_edges_eq (h : tables.Distinct) (source : String) :
    (row tables.edges source).toList = tables.graph.importsOf source := by
  refine OrderedSet.eq_of_increasing (row tables.edges source).increasing
    (importsOf_increasing _ _) fun target => ?_
  rw [mem_importsOf]
  exact (mem_edges_graph h).symm

/-- A node is a target exactly if some row holds it. -/
theorem exists_row_iff (h : tables.Distinct) :
    (∃ entry ∈ tables.edges, node ∈ entry.2) ↔
      ∃ source, ⟨source, node⟩ ∈ tables.graph.edges := by
  constructor
  · rintro ⟨⟨source, names⟩, hmem, hnode⟩
    exact ⟨source, (mem_edges_graph h).mpr ((mem_row_iff h.edges).mpr ⟨names, hmem, hnode⟩)⟩
  · rintro ⟨source, hedge⟩
    obtain ⟨names, hmem, hnode⟩ := (mem_row_iff h.edges).mp ((mem_edges_graph h).mp hedge)
    exact ⟨(source, names), hmem, hnode⟩

/-- **The roots that are looked for in the rows are the roots of the graph.** -/
theorem roots_eq (h : tables.Distinct) : tables.roots = tables.graph.roots := by
  refine OrderedSet.ext_mem fun node => ?_
  have htarget : node ∈ tables.edges.foldl (fun all entry => all.union entry.2) OrderedSet.empty ↔
      ∃ source, ⟨source, node⟩ ∈ tables.graph.edges := by
    rw [foldl_holds_iff (fun all : NameSet => node ∈ all) fun _ _ => OrderedSet.mem_union,
      exists_row_iff h]
    exact or_iff_right List.not_mem_nil
  unfold Tables.roots
  rw [mem_roots_iff, OrderedSet.mem_filter, Bool.not_eq_true', ← Bool.not_eq_true, ← htarget]
  unfold OrderedSet.contains
  rw [List.contains_iff_mem]
  rfl

/-- **The connected nodes of the rows are those of the graph.** -/
theorem connected_eq (h : tables.Distinct) : tables.connected = tables.graph.connected := by
  refine OrderedSet.ext_mem fun node => ?_
  have hbrings : ∀ (all : NameSet) (entry : String × NameSet),
      node ∈ (if entry.2.isEmpty then all else (all.insert entry.1).union entry.2) ↔
        node ∈ all ∨ (entry.2.toList ≠ [] ∧ node = entry.1 ∨ node ∈ entry.2) := by
    intro all entry
    unfold OrderedSet.isEmpty
    by_cases hempty : entry.2.toList = []
    · simp [hempty]
    · rw [if_neg (by simpa using hempty), OrderedSet.mem_union, OrderedSet.mem_insert]
      simp only [ne_eq, hempty, not_false_eq_true, true_and]
      rw [or_assoc, or_left_comm]
  unfold Tables.connected
  rw [foldl_holds_iff (fun all : NameSet => node ∈ all) hbrings, mem_connected_iff,
    importsOf_ne_nil_iff]
  constructor
  · rintro (hempty | ⟨⟨source, names⟩, hmem, ⟨hne, rfl⟩ | hnode⟩)
    · exact absurd hempty List.not_mem_nil
    · obtain ⟨target, htarget⟩ := List.exists_mem_of_ne_nil _ hne
      exact Or.inl ⟨target, (mem_edges_graph h).mpr ((mem_row_iff h.edges).mpr
        ⟨names, hmem, htarget⟩)⟩
    · exact Or.inr ((exists_row_iff h).mp ⟨_, hmem, hnode⟩)
  · rintro (⟨target, hedge⟩ | hedge)
    · obtain ⟨names, hmem, htarget⟩ := (mem_row_iff h.edges).mp ((mem_edges_graph h).mp hedge)
      exact Or.inr ⟨_, hmem, Or.inl ⟨List.ne_nil_of_mem htarget, rfl⟩⟩
    · obtain ⟨entry, hmem, hnode⟩ := (exists_row_iff h).mpr hedge
      exact Or.inr ⟨entry, hmem, Or.inr hnode⟩

/-! ## Going through the rows -/

/-- Every key comes once, in increasing order. -/
theorem perm_sorted_keys (h : (rows.map (·.1)).Nodup) :
    (OrderedSet.ofList (rows.map (·.1))).toList.Perm (rows.map (·.1)) :=
  (List.perm_ext_iff_of_nodup
    (OrderedSet.nodup_of_increasing (OrderedSet.ofList (rows.map (·.1))).increasing) h).mpr
    fun _ => OrderedSet.mem_ofList

/-- **The edges that are read off row by row are those of the graph, in its order.** -/
theorem edgeList_eq (h : tables.Distinct) : tables.edgeList = tables.graph.edges.toList := by
  refine OrderedSet.eq_of_increasing ?_ tables.graph.edges.increasing fun edge => ?_
  · -- sources come in increasing order, and so do the targets of each
    unfold edgeList
    rw [List.pairwise_flatMap]
    constructor
    · intro source _
      rw [List.pairwise_map]
      exact (row tables.edges source).increasing.imp fun hlt => Or.inr ⟨rfl, hlt⟩
    · refine (OrderedSet.ofList (tables.edges.map (·.1))).increasing.imp ?_
      intro a b hlt x hx y hy
      obtain ⟨_, -, rfl⟩ := List.mem_map.mp hx
      obtain ⟨_, -, rfl⟩ := List.mem_map.mp hy
      exact Or.inl hlt
  · obtain ⟨source, target⟩ := edge
    unfold edgeList
    rw [← OrderedSet.mem_def, mem_edges_graph h, List.mem_flatMap]
    constructor
    · rintro ⟨key, -, hedge⟩
      obtain ⟨name, hname, heq⟩ := List.mem_map.mp hedge
      cases heq
      exact hname
    · intro htarget
      obtain ⟨names, hmem, -⟩ := (mem_row_iff h.edges).mp htarget
      refine ⟨source, ?_, List.mem_map_of_mem htarget⟩
      exact OrderedSet.mem_ofList.mpr (List.mem_map_of_mem hmem)

/-- **As many edges are counted as are listed.** -/
theorem count_eq (h : tables.Distinct) : count tables.edges = tables.edgeList.length := by
  unfold count edgeList
  rw [← List.sum_eq_foldl, List.length_flatMap]
  simp only [List.length_map]
  rw [((perm_sorted_keys h.edges).map fun key => (row tables.edges key).toList.length).sum_eq,
    List.map_map]
  congr 1
  refine List.map_congr_left fun entry hentry => ?_
  show entry.2.size = (row tables.edges entry.1).toList.length
  rw [row_of_mem h.edges hentry]
  rfl

/-! ## The imported-by lists -/

/-- **`Gains index index' gained`** — the second index has the keys of the first, and the row of
each key holds what it held and what it gained. -/
structure Gains (index index' : List (String × NameSet)) (gained : String → String → Prop) :
    Prop where
  keys : index'.map (·.1) = index.map (·.1)
  mem_row : ∀ key x, x ∈ row index' key ↔ x ∈ row index key ∨ gained key x

variable {index index' index'' : List (String × NameSet)} {gained gained' : String → String → Prop}

theorem Gains.trans (h : Gains index index' gained) (h' : Gains index' index'' gained') :
    Gains index index'' fun key x => gained key x ∨ gained' key x where
  keys := h'.keys.trans h.keys
  mem_row key x := by rw [h'.mem_row, h.mem_row, or_assoc]

/-- A name can be put into each row that is there. -/
theorem exists_putInto? (h : key ∈ index.map (·.1)) (name : String) :
    ∃ index', putInto? key name index = some index' ∧
      Gains index index' fun k x => k = key ∧ x = name := by
  induction index with
  | nil => cases h
  | cons first rest ih =>
      obtain ⟨own, names⟩ := first
      rw [putInto?]
      by_cases hown : own = key
      · subst hown
        rw [if_pos rfl]
        refine ⟨_, rfl, rfl, fun k x => ?_⟩
        rw [row_cons, row_cons]
        by_cases hk : k = own
        · simp only [hk, if_true, OrderedSet.mem_insert, true_and]
          exact or_comm
        · simp [hk]
      · obtain ⟨rest', hrest, hgains⟩ := ih ((List.mem_cons.mp h).resolve_left (Ne.symm hown))
        rw [if_neg hown, hrest]
        refine ⟨_, rfl, congrArg (own :: ·) hgains.keys, fun k x => ?_⟩
        rw [row_cons, row_cons]
        by_cases hk : k = own
        · simp [hk, hown]
        · rw [if_neg hk, if_neg hk, hgains.mem_row]

/-- The targets of one source each gain that source. -/
theorem exists_putAll {targets : List String} (h : ∀ target ∈ targets, target ∈ index.map (·.1))
    (source : String) :
    ∃ index', targets.foldlM (fun index target => putInto? target source index) index =
        some index' ∧ Gains index index' fun k x => k ∈ targets ∧ x = source := by
  induction targets generalizing index with
  | nil => exact ⟨index, rfl, rfl, by simp⟩
  | cons target rest ih =>
      obtain ⟨htarget, hrest⟩ := List.forall_mem_cons.mp h
      obtain ⟨first, hfirst, hgains⟩ := exists_putInto? htarget source
      obtain ⟨last, hlast, hgains'⟩ := ih fun t ht => hgains.keys.symm ▸ hrest t ht
      refine ⟨last, ?_, (hgains.trans hgains').keys, fun k x => ?_⟩
      · rw [List.foldlM_cons, hfirst]
        exact hlast
      · rw [(hgains.trans hgains').mem_row, List.mem_cons, or_and_right]

/-- **All targets gain their sources**, if there is a row for each of them. -/
theorem exists_putRows (h : ∀ entry ∈ rows, ∀ target ∈ entry.2.toList, target ∈ index.map (·.1)) :
    ∃ index', rows.foldlM (fun index (entry : String × NameSet) =>
        entry.2.toList.foldlM (fun index target => putInto? target entry.1 index) index) index =
          some index' ∧
      Gains index index' fun k x => ∃ entry ∈ rows, k ∈ entry.2 ∧ x = entry.1 := by
  induction rows generalizing index with
  | nil => exact ⟨index, rfl, rfl, by simp⟩
  | cons entry rest ih =>
      obtain ⟨hentry, hrest⟩ := List.forall_mem_cons.mp h
      obtain ⟨first, hfirst, hgains⟩ := exists_putAll hentry entry.1
      obtain ⟨last, hlast, hgains'⟩ := ih fun e he t ht => hgains.keys.symm ▸ hrest e he t ht
      refine ⟨last, ?_, (hgains.trans hgains').keys, fun k x => ?_⟩
      · rw [List.foldlM_cons, hfirst]
        exact hlast
      · rw [(hgains.trans hgains').mem_row]
        simp

/-- **Where every target is a node, the imported-by lists can be made, and they are those of the
graph.** -/
theorem inboundIndex?_eq (h : tables.Distinct) (hclosed : tables.graph.Closed) :
    tables.inboundIndex? = some tables.graph.inboundIndex := by
  let start : List (String × NameSet) :=
    tables.nodes.toList.map fun node => (node, OrderedSet.empty)
  have hkeys : start.map (·.1) = tables.nodes.toList := by
    rw [List.map_map]
    exact List.map_id _
  have htargets : ∀ entry ∈ tables.edges, ∀ target ∈ entry.2.toList,
      target ∈ start.map (·.1) := by
    intro entry hentry target htarget
    rw [hkeys]
    obtain ⟨source, hedge⟩ := (exists_row_iff h).mp ⟨entry, hentry, htarget⟩
    exact hclosed.target _ hedge
  obtain ⟨index, hindex, hgains⟩ := exists_putRows htargets
  have hnodes : index.map (·.1) = tables.nodes.toList := hgains.keys.trans hkeys
  have hdistinct : (index.map (·.1)).Nodup := by
    rw [hnodes]
    exact OrderedSet.nodup_of_increasing tables.nodes.increasing
  -- at the start all rows are empty, so that each row holds what it has gained
  have hrow : ∀ node, (row index node).toList = tables.graph.importersOf node := by
    intro node
    have hempty : ∀ x, x ∉ row start node := by
      intro x hx
      obtain ⟨names, hmem, hname⟩ := (mem_row_iff (hgains.keys ▸ hdistinct)).mp hx
      obtain ⟨other, -, heq⟩ := List.mem_map.mp hmem
      cases heq
      exact List.not_mem_nil hname
    refine OrderedSet.eq_of_increasing (row index node).increasing (importersOf_increasing _ _)
      fun source => ?_
    rw [mem_importersOf, ← OrderedSet.mem_def, hgains.mem_row, or_iff_right (hempty source)]
    show _ ↔ (⟨source, node⟩ : Edge) ∈ tables.graph.edges
    rw [mem_edges_graph h, mem_row_iff h.edges]
    constructor
    · rintro ⟨⟨_, names⟩, hmem, hnode, rfl⟩
      exact ⟨names, hmem, hnode⟩
    · rintro ⟨names, hmem, hnode⟩
      exact ⟨_, hmem, hnode, rfl⟩
  unfold inboundIndex?
  show (Option.bind (List.foldlM _ start tables.edges) _) = _
  rw [hindex]
  show some (index.map _) = some (tables.nodes.toList.map _)
  rw [eq_map_row hdistinct, hnodes, List.map_map]
  exact congrArg some (List.map_congr_left fun node _ => congrArg (node, ·) (hrow node))

end Tables

end SourceAtlas.ImportGraph
