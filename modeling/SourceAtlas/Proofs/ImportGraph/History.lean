/-
# SourceAtlas.Proofs.ImportGraph.History — a graph after any calls.

Whatever is called on a new graph, in whatever order, no call fails and the graph stays coherent:
its edges join nodes, and all that it can be asked tells of the same edges (`Tables.Coherent`).  It
holds what the calls that add have said and nothing else (`Tables.Records`), so neither the order
nor the repetition of calls shows in it, and neither do questions and changes of what they were
answered with (`run?_coherent`).  The proof is an induction over the calls; what one call keeps up
is `Sound.exists_step?`.
-/
import SourceAtlas.Proofs.ImportGraph.Memory

namespace SourceAtlas.ImportGraph

/-! ## Answers -/

namespace Tables

variable {tables : Tables}

/-- **Every question has an answer**, and the answer leads to nothing but itself. -/
theorem exists_answer? (h : tables.Distinct) (hclosed : tables.graph.Closed) (query : Query) :
    ∃ answer, tables.answer? query = some answer ∧ answer.IsFlat := by
  cases query with
  | missing =>
      refine ⟨_, rfl, fun row hrow => ?_⟩
      obtain ⟨entry, -, rfl⟩ := List.mem_map.mp hrow
      trivial
  | inboundIndex =>
      unfold answer?
      rw [inboundIndex?_eq h hclosed]
      refine ⟨_, rfl, fun row hrow => ?_⟩
      obtain ⟨entry, -, rfl⟩ := List.mem_map.mp hrow
      trivial
  | _ => exact ⟨_, rfl, trivial⟩

/-! ## Coherence -/

/-- **`Coherent tables`** — edges join nodes, and whatever can be asked about them tells
the same. -/
structure Coherent (tables : Tables) : Prop where
  source : ∀ source target, target ∈ row tables.edges source → source ∈ tables.nodes
  target : ∀ source target, target ∈ row tables.edges source → target ∈ tables.nodes
  apart : ∀ source target, target ∈ row tables.edges source → source ≠ target
  missing : ∀ source specifier, specifier ∈ row tables.missing source → source ∈ tables.nodes
  /-- The imported-by lists can be made: there is one for each node, in increasing order, and it holds
  exactly the nodes that import it. -/
  inbound : ∃ index, tables.inboundIndex? = some index ∧ index.map (·.1) = tables.nodes.toList ∧
    (∀ node sources, (node, sources) ∈ index → sources.Pairwise (· < ·) ∧
      ∀ source, source ∈ sources ↔ node ∈ row tables.edges source) ∧
    (∀ node, node ∈ tables.roots ↔ (node, []) ∈ index) ∧
    ∀ node, node ∈ tables.connected ↔
      (row tables.edges node).toList ≠ [] ∨ ∃ sources, (node, sources) ∈ index ∧ sources ≠ []
  edges : ∀ source target, ⟨source, target⟩ ∈ tables.edgeList ↔ target ∈ row tables.edges source
  edgesIncreasing : tables.edgeList.Pairwise fun a b =>
    a.source < b.source ∨ (a.source = b.source ∧ a.target < b.target)
  edgeCount : tables.edgeList.length = count tables.edges

/-- **Tables of a closed graph are coherent.** -/
theorem coherent (h : tables.Distinct) (hclosed : tables.graph.Closed) : tables.Coherent where
  source source target hedge := hclosed.source _ ((mem_edges_graph h).mpr hedge)
  target source target hedge := hclosed.target _ ((mem_edges_graph h).mpr hedge)
  apart source target hedge := hclosed.apart _ ((mem_edges_graph h).mpr hedge)
  missing source specifier hmissing := hclosed.missing _ ((mem_missing_graph h).mpr hmissing)
  inbound := by
    refine ⟨_, inboundIndex?_eq h hclosed, ?_, ?_, ?_, ?_⟩
    · unfold ImportGraph.inboundIndex
      rw [List.map_map]
      exact List.map_id _
    · intro node sources hindex
      obtain ⟨-, rfl⟩ := mem_inboundIndex_iff.mp hindex
      refine ⟨importersOf_increasing _ node, fun source => ?_⟩
      rw [mem_importersOf, ← mem_edges_graph h]
      rfl
    · intro node
      rw [roots_eq h, mem_roots_iff, mem_inboundIndex_iff, importersOf_eq_nil_iff]
    · intro node
      rw [connected_eq h, mem_connected_iff, ← row_edges_eq h]
      refine or_congr_right ?_
      constructor
      · rintro ⟨source, hedge⟩
        refine ⟨_, mem_inboundIndex_iff.mpr ⟨hclosed.target _ hedge, rfl⟩, fun heq => ?_⟩
        exact importersOf_eq_nil_iff.mp heq ⟨source, hedge⟩
      · rintro ⟨sources, hindex, hne⟩
        obtain ⟨-, rfl⟩ := mem_inboundIndex_iff.mp hindex
        exact Classical.not_not.mp fun hnone => hne (importersOf_eq_nil_iff.mpr hnone)
  edges source target := by
    rw [edgeList_eq h, ← mem_edges_graph h]
    rfl
  edgesIncreasing := by
    rw [edgeList_eq h]
    exact tables.graph.edges.increasing
  edgeCount := (count_eq h).symm

end Tables

/-! ## Calls that add -/

namespace Call

/-- **`Adds call`** — a call adds to the graph. -/
def Adds : Call → Prop
  | .addNode _ => True
  | .addEdge _ _ => True
  | .addMissing _ _ => True
  | _ => False

/-- **`Names call node`** — a call makes a node. -/
def Names (node : String) : Call → Prop
  | .addNode name => node = name
  | .addEdge source target => source ≠ target ∧ (node = source ∨ node = target)
  | .addMissing source _ => node = source
  | _ => False

theorem Names.adds {node : String} {call : Call} (h : call.Names node) : call.Adds := by
  cases call with
  | ask query => cases h
  | make object => cases h
  | change address object => cases h
  | _ => trivial

end Call

namespace Tables

variable {tables : Tables} {node source target specifier : String}

/-- The tables after a call: a call that does not add leaves them as they are. -/
def after (tables : Tables) : Call → Tables
  | .addNode node => tables.addNode node
  | .addEdge source target => tables.addEdge source target
  | .addMissing source specifier => tables.addMissing source specifier
  | _ => tables

theorem after_of_not_adds {call : Call} (h : ¬ call.Adds) : tables.after call = tables := by
  cases call with
  | addNode node => exact absurd trivial h
  | addEdge source target => exact absurd trivial h
  | addMissing source specifier => exact absurd trivial h
  | _ => rfl

theorem mem_nodes_after (tables : Tables) (call : Call) :
    node ∈ (tables.after call).nodes ↔ node ∈ tables.nodes ∨ call.Names node := by
  cases call with
  | addNode name => exact OrderedSet.mem_insert.trans or_comm
  | addEdge source target =>
      show node ∈ (tables.addEdge source target).nodes ↔ _
      unfold addEdge
      by_cases heq : source = target
      · simp [heq, Call.Names]
      · simp only [if_neg heq, OrderedSet.mem_insert, Call.Names]
        tauto
  | addMissing source specifier => exact OrderedSet.mem_insert.trans or_comm
  | _ => exact (or_iff_left id).symm

theorem mem_edges_after (tables : Tables) (call : Call) :
    target ∈ row (tables.after call).edges source ↔
      target ∈ row tables.edges source ∨ (source ≠ target ∧ call = .addEdge source target) := by
  cases call with
  | addEdge s t =>
      show target ∈ row (tables.addEdge s t).edges source ↔ _
      unfold addEdge
      rw [Call.addEdge.injEq]
      by_cases heq : s = t
      · rw [if_pos heq]
        refine (or_iff_left ?_).symm
        rintro ⟨hne, rfl, rfl⟩
        exact hne heq
      · rw [if_neg heq, mem_row_insertRow]
        refine or_congr_right ⟨?_, fun ⟨_, hs, ht⟩ => ⟨hs.symm, ht.symm⟩⟩
        rintro ⟨rfl, rfl⟩
        exact ⟨heq, rfl, rfl⟩
  | _ => simp [after, addNode, addMissing]

theorem mem_missing_after (tables : Tables) (call : Call) :
    specifier ∈ row (tables.after call).missing source ↔
      specifier ∈ row tables.missing source ∨ call = .addMissing source specifier := by
  cases call with
  | addMissing s x =>
      show specifier ∈ row (insertRow s x tables.missing) source ↔ _
      rw [Call.addMissing.injEq, mem_row_insertRow, @eq_comm _ source, @eq_comm _ specifier]
  | addEdge s t =>
      show specifier ∈ row (tables.addEdge s t).missing source ↔ _
      unfold addEdge
      split
      · simp
      · simp
  | _ => simp [after, addNode]

/-- **`Records tables calls`** — tables hold what the calls that add have said, and nothing else. -/
structure Records (tables : Tables) (calls : List Call) : Prop where
  nodes : ∀ node, node ∈ tables.nodes ↔ ∃ call ∈ calls, call.Names node
  edges : ∀ source target, target ∈ row tables.edges source ↔
    source ≠ target ∧ .addEdge source target ∈ calls
  missing : ∀ source specifier, specifier ∈ row tables.missing source ↔
    .addMissing source specifier ∈ calls

/-- **Calls one after another are recorded.** -/
theorem records_foldl_after (calls : List Call) : (calls.foldl after empty).Records calls where
  nodes node := by
    rw [foldl_holds_iff (fun tables : Tables => node ∈ tables.nodes)
      fun tables call => mem_nodes_after tables call]
    exact or_iff_right List.not_mem_nil
  edges source target := by
    rw [foldl_holds_iff (fun tables : Tables => target ∈ row tables.edges source)
      fun tables call => mem_edges_after tables call]
    constructor
    · rintro (hempty | ⟨call, hcall, hne, rfl⟩)
      · exact absurd hempty List.not_mem_nil
      · exact ⟨hne, hcall⟩
    · rintro ⟨hne, hcall⟩
      exact Or.inr ⟨_, hcall, hne, rfl⟩
  missing source specifier := by
    rw [foldl_holds_iff (fun tables : Tables => specifier ∈ row tables.missing source)
      fun tables call => mem_missing_after tables call]
    constructor
    · rintro (hempty | ⟨call, hcall, rfl⟩)
      · exact absurd hempty List.not_mem_nil
      · exact hcall
    · exact fun hcall => Or.inr ⟨_, hcall, rfl⟩

/-- **Tables that record the same calls tell of one graph.** -/
theorem Records.graph_eq {tables' : Tables} {calls calls' : List Call} (h : tables.Records calls)
    (h' : tables'.Records calls') (hdistinct : tables.Distinct) (hdistinct' : tables'.Distinct)
    (hsame : ∀ call, call.Adds → (call ∈ calls ↔ call ∈ calls')) : tables.graph = tables'.graph := by
  have hnodes : tables.nodes = tables'.nodes := by
    refine OrderedSet.ext_mem fun node => ?_
    rw [h.nodes, h'.nodes]
    refine exists_congr fun call => and_congr_left fun hnames => ?_
    exact hsame call hnames.adds
  have hedges : tables.graph.edges = tables'.graph.edges := by
    refine OrderedSet.ext_mem fun edge => ?_
    obtain ⟨source, target⟩ := edge
    rw [mem_edges_graph hdistinct, mem_edges_graph hdistinct', h.edges, h'.edges]
    exact and_congr_right fun _ => hsame _ trivial
  have hmissing : tables.graph.missing = tables'.graph.missing := by
    refine OrderedSet.ext_mem fun missing => ?_
    obtain ⟨source, specifier⟩ := missing
    rw [mem_missing_graph hdistinct, mem_missing_graph hdistinct', h.missing, h'.missing]
    exact hsame _ trivial
  calc tables.graph = ⟨tables.nodes, tables.graph.edges, tables.graph.missing⟩ := rfl
    _ = ⟨tables'.nodes, tables'.graph.edges, tables'.graph.missing⟩ := by
      rw [hnodes, hedges, hmissing]
    _ = tables'.graph := rfl

end Tables

/-! ## One call -/

namespace Memory

variable {memory : Memory} {tables : Tables}

/-- **`Sound memory tables`** — a graph in memory keeps tables to itself, no source has two rows,
and their graph is closed. -/
structure Sound (memory : Memory) (tables : Tables) : Prop where
  keeps : Keeps memory tables
  distinct : tables.Distinct
  closed : tables.graph.Closed

theorem sound_empty : Sound empty Tables.empty where
  keeps := keeps_empty
  distinct := ⟨List.nodup_nil, List.nodup_nil⟩
  closed := closed_empty

/-- **No call fails, and every call keeps a graph sound.** -/
theorem Sound.exists_step? (h : Sound memory tables) (call : Call) :
    ∃ memory', memory.step? call = some memory' ∧ Sound memory' (tables.after call) := by
  cases call with
  | addNode node =>
      obtain ⟨memory', hstep, hkeeps⟩ := h.keeps.exists_addNode? node
      refine ⟨memory', hstep, hkeeps, h.distinct.addNode node, ?_⟩
      show (tables.addNode node).graph.Closed
      rw [Tables.graph_addNode]
      exact h.closed.addNode node
  | addEdge source target =>
      obtain ⟨memory', hstep, hkeeps⟩ := h.keeps.exists_addEdge? source target
      refine ⟨memory', ?_, hkeeps, h.distinct.addEdge source target, ?_⟩
      · show (memory.addEdge? source target).map (·.2) = _
        rw [hstep]
        rfl
      · show (tables.addEdge source target).graph.Closed
        rw [Tables.graph_addEdge h.distinct]
        exact h.closed.addEdge source target
  | addMissing source specifier =>
      obtain ⟨memory', hstep, hkeeps⟩ := h.keeps.exists_addMissing? source specifier
      refine ⟨memory', hstep, hkeeps, h.distinct.addMissing source specifier, ?_⟩
      show (tables.addMissing source specifier).graph.Closed
      rw [Tables.graph_addMissing h.distinct]
      exact h.closed.addMissing source specifier
  | ask query =>
      obtain ⟨answer, hanswer, hflat⟩ := Tables.exists_answer? h.distinct h.closed query
      obtain ⟨reply, memory', hask, hkeeps, -⟩ := h.keeps.exists_ask? hanswer hflat
      refine ⟨memory', ?_, hkeeps, h.distinct, h.closed⟩
      show (memory.ask? query).map (·.2) = _
      rw [hask]
      rfl
  | make object => exact ⟨_, rfl, h.keeps.make object, h.distinct, h.closed⟩
  | change address object => exact ⟨_, rfl, h.keeps.change address object, h.distinct, h.closed⟩

/-! ## All calls -/

/-- **Calls one after another do not fail**, and leave a sound graph. -/
theorem Sound.exists_foldlM (h : Sound memory tables) (calls : List Call) :
    ∃ memory', calls.foldlM (·.step? ·) memory = some memory' ∧
      Sound memory' (calls.foldl Tables.after tables) := by
  induction calls generalizing memory tables with
  | nil => exact ⟨memory, rfl, h⟩
  | cons call rest ih =>
      obtain ⟨next, hstep, hnext⟩ := h.exists_step? call
      obtain ⟨last, hrest, hlast⟩ := ih hnext
      refine ⟨last, ?_, hlast⟩
      rw [List.foldlM_cons, hstep]
      exact hrest

/-- **A graph after any calls is coherent and records them.**  Every question gets the answer of the
tables, as a value or as a new object; calls that do not add leave the tables as they are; and calls
that add the same lead to the same graph, in whatever order and however often they come. -/
theorem run?_coherent (calls : List Call) :
    ∃ memory tables, run? calls = some memory ∧ memory.tables? = some tables ∧
      tables.Coherent ∧ tables.Records calls ∧
      (∀ query, ∃ answer reply memory', tables.answer? query = some answer ∧
        memory.ask? query = some (reply, memory') ∧ memory'.shows? reply = some answer) ∧
      (∀ call, ¬ call.Adds →
        ∃ memory', memory.step? call = some memory' ∧ memory'.tables? = some tables) ∧
      ∀ calls', (∀ call, call.Adds → (call ∈ calls ↔ call ∈ calls')) →
        ∃ memory' tables', run? calls' = some memory' ∧ memory'.tables? = some tables' ∧
          tables'.graph = tables.graph := by
  obtain ⟨memory, hrun, hsound⟩ := sound_empty.exists_foldlM calls
  have hrecords := Tables.records_foldl_after calls
  refine ⟨memory, _, hrun, hsound.keeps.tables?, Tables.coherent hsound.distinct hsound.closed,
    hrecords, ?_, ?_, ?_⟩
  · intro query
    obtain ⟨answer, hanswer, hflat⟩ := Tables.exists_answer? hsound.distinct hsound.closed query
    obtain ⟨reply, memory', hask, -, hshows⟩ := hsound.keeps.exists_ask? hanswer hflat
    exact ⟨answer, reply, memory', hanswer, hask, hshows⟩
  · intro call hcall
    obtain ⟨memory', hstep, hnext⟩ := hsound.exists_step? call
    rw [Tables.after_of_not_adds hcall] at hnext
    exact ⟨memory', hstep, hnext.keeps.tables?⟩
  · intro calls' hsame
    obtain ⟨memory', hrun', hsound'⟩ := sound_empty.exists_foldlM calls'
    refine ⟨memory', _, hrun', hsound'.keeps.tables?, ?_⟩
    exact (hrecords.graph_eq (Tables.records_foldl_after calls') hsound.distinct hsound'.distinct
      hsame).symm

/-- Calls between which a set that was given away is changed. -/
def changedCopy : List Call :=
  [.addEdge "a" "b", .addMissing "b" "./c", .ask (.targetsOf "a"), .change 4 (.list ["c"])]

/-- The same additions in another order and one of them twice. -/
def additionsOnly : List Call :=
  [.addMissing "b" "./c", .addEdge "a" "b", .addEdge "a" "b"]

theorem run?_coherent_changedCopy :
    ¬ (Call.change 4 (.list ["c"])).Adds ∧
      (∀ call : Call, call.Adds → (call ∈ changedCopy ↔ call ∈ additionsOnly)) ∧
      ∃ memory tables, run? changedCopy = some memory ∧ memory.tables? = some tables ∧
        (∃ memory', memory.step? (.change 4 (.list ["c"])) = some memory' ∧
          memory'.tables? = some tables) ∧
        ∃ memory' tables', run? additionsOnly = some memory' ∧ memory'.tables? = some tables' ∧
          tables'.graph = tables.graph := by
  have hadds : ¬ (Call.change 4 (.list ["c"])).Adds := id
  have hsame : ∀ call : Call, call.Adds → (call ∈ changedCopy ↔ call ∈ additionsOnly) := by
    intro call hcall
    cases call with
    | addNode node => simp [changedCopy, additionsOnly]
    | addEdge source target => simp [changedCopy, additionsOnly]
    | addMissing source specifier => simp [changedCopy, additionsOnly]
    | _ => exact absurd hcall id
  obtain ⟨memory, tables, hrun, htables, -, -, -, hunseen, hgraph⟩ := run?_coherent changedCopy
  exact ⟨hadds, hsame, memory, tables, hrun, htables, hunseen _ hadds, hgraph _ hsame⟩

/-- The set that was given away is changed, and the graph does not see it. -/
example :
    (run? [.addEdge "a" "b", .ask (.targetsOf "a"), .change 4 (.list ["c"])]).map
        (fun memory => (memory.given, memory.read? 4, memory.tables?)) =
      some ([4], some (.object (.list ["c"])),
        some ⟨OrderedSet.ofList ["a", "b"], [("a", OrderedSet.ofList ["b"])], []⟩) := by
  rfl

end Memory

end SourceAtlas.ImportGraph
