/-
# SourceAtlas.Proofs.Render.Missing — which missing imports the import trees tell.

A specifier that a file misses has a line of its own, below the line that expands the file.  Which
files the trees expand is decided by their edges alone: those that an edge joins to another file.
Of such a file each missing specifier is told by exactly one line, whatever cycles and marks there
are around it; of any other file none is told, though the report knows of it (`TellsMissing`,
`strayImporter_untold`).
-/
import SourceAtlas.Proofs.Render.Exact
import SourceAtlas.Proofs.Report.Rebuilt

namespace SourceAtlas

/-! ## Joined files -/

/-- Whether an edge of the report joins the file to another. -/
def Report.Joins (report : Report) (path : String) : Prop :=
  ∃ edge ∈ report.graphEdges, edge.source ≠ edge.target ∧ (path = edge.source ∨ path = edge.target)

instance (report : Report) (path : String) : Decidable (report.Joins path) :=
  inferInstanceAs (Decidable (∃ edge ∈ report.graphEdges, _))

theorem Report.mem_connected_graph {report : Report} {path : String} :
    path ∈ report.graph.connected ↔ report.Joins path := by
  rw [ImportGraph.mem_connected_iff, ImportGraph.importsOf_ne_nil_iff]
  constructor
  · rintro (⟨target, hedge⟩ | ⟨source, hedge⟩)
    · obtain ⟨hmem, hne⟩ := Report.mem_edges_graph.mp hedge
      exact ⟨_, hmem, hne, Or.inl rfl⟩
    · obtain ⟨hmem, hne⟩ := Report.mem_edges_graph.mp hedge
      exact ⟨_, hmem, hne, Or.inr rfl⟩
  · rintro ⟨edge, hmem, hne, rfl | rfl⟩
    · exact Or.inl ⟨_, Report.mem_edges_graph.mpr ⟨hmem, hne⟩⟩
    · exact Or.inr ⟨_, Report.mem_edges_graph.mpr ⟨hmem, hne⟩⟩

namespace Render

open DependencyLine DependencyView

variable {lines : List DependencyLine} {path specifier : String}

/-! ## Lines that tell what is missing -/

/-- A line tells that a file misses a specifier exactly if it is the specifier's, below the file. -/
theorem entryOf?_eq_missing_iff {line : DependencyLine} :
    line.entryOf? path = some (.missing specifier) ↔
      ∃ above place, line = .missing (path :: above) specifier place := by
  unfold entryOf?
  cases line with
  | gap => simp [ entry?]
  | head node mark => simp [ entry?]
  | item ancestors node place mark => simp [ entry?]
  | missing ancestors found place =>
      cases ancestors with
      | nil => simp [DependencyLine.ancestors]
      | cons parent above => simp [DependencyLine.ancestors, entry?, and_comm]

/-- **`ToldOnce lines path specifier`** — one of the lines tells that the file misses the specifier,
below the line that expands the file, and no other line does. -/
def ToldOnce (lines : List DependencyLine) (path specifier : String) : Prop :=
  ∃ before above place after,
    lines = before ++ .missing (path :: above) specifier place :: after ∧
      CurrentPath before (path :: above) place.levels ∧
      ∀ line ∈ before ++ after, line.entryOf? path ≠ some (.missing specifier)

/-- What is found once has one place. -/
theorem exists_split_of_mem_filterMap {α β : Type} {f : α → Option β} {l : List α} {b : β}
    (hnodup : (l.filterMap f).Nodup) (h : b ∈ l.filterMap f) :
    ∃ before a after, l = before ++ a :: after ∧ f a = some b ∧
      ∀ x ∈ before ++ after, f x ≠ some b := by
  obtain ⟨a, ha, hfound⟩ := List.mem_filterMap.mp h
  obtain ⟨before, after, rfl⟩ := List.append_of_mem ha
  refine ⟨before, a, after, rfl, hfound, fun x hx hagain => ?_⟩
  have hperm : ((before ++ a :: after).filterMap f).Perm (b :: (before ++ after).filterMap f) := by
    rw [← List.filterMap_cons_some hfound]
    exact List.perm_middle.filterMap f
  exact (List.nodup_cons.mp (hperm.nodup_iff.mp hnodup)).1 (List.mem_filterMap.mpr ⟨x, hx, hagain⟩)

section

variable {view : DependencyView}

/-- What is missing is listed below a file that the trees expand. -/
theorem missing_mem_entriesOf : .missing specifier ∈ view.entriesOf path ↔
    specifier ∈ view.missingOf path := by
  unfold entriesOf
  simp

/-- **In exact lines, what a connected file misses is told once.** -/
theorem DependencyView.Exact.toldOnce (h : view.Exact lines) (hpath : path ∈ view.graph.connected)
    (hmissing : specifier ∈ view.missingOf path) : ToldOnce lines path specifier := by
  have hlisted : .missing specifier ∈ lines.filterMap (entryOf? path) := by
    rw [h.listing path hpath]
    exact missing_mem_entriesOf.mpr hmissing
  obtain ⟨before, line, after, hlines, htells, hothers⟩ :=
    exists_split_of_mem_filterMap (h.once path) hlisted
  obtain ⟨above, place, rfl⟩ := entryOf?_eq_missing_iff.mp htells
  exact ⟨before, above, place, after, hlines, (h.faithful _ _ _ hlines).path place rfl, hothers⟩

/-- Below a file stand only lines of a connected file, and only what it misses is told. -/
theorem DependencyView.Exact.of_tells (h : view.Exact lines) {line : DependencyLine}
    (hline : line ∈ lines) (htells : line.entryOf? path = some (.missing specifier)) :
    path ∈ view.graph.connected ∧ specifier ∈ view.missingOf path := by
  have hlisted : .missing specifier ∈ lines.filterMap (entryOf? path) :=
    List.mem_filterMap.mpr ⟨line, hline, htells⟩
  have hpath := h.connected path (List.ne_nil_of_mem hlisted)
  rw [h.listing path hpath] at hlisted
  exact ⟨hpath, missing_mem_entriesOf.mp hlisted⟩

end

/-! ## The trees of a report -/

/-- **`TellsMissing report lines`** — the lines tell of missing imports what the report knows of
joined files, and nothing else. -/
structure TellsMissing (report : Report) (lines : List DependencyLine) : Prop where
  /-- A file that an edge joins to another has each specifier that it misses told once. -/
  joined : ∀ row ∈ report.unresolved, ∀ specifier ∈ row.2, report.Joins row.1 →
    ToldOnce lines row.1 specifier
  /-- Of another file no missing specifier is told. -/
  stray : ∀ path, ¬ report.Joins path → ∀ specifier, ∀ line ∈ lines,
    line.entryOf? path ≠ some (.missing specifier)
  /-- Nothing is told to be missing that the report does not list. -/
  listed : ∀ line ∈ lines, ∀ path specifier, line.entryOf? path = some (.missing specifier) →
    ∃ row ∈ report.unresolved, row.1 = path ∧ specifier ∈ row.2

/-- What the import trees of a report show as missing is what its rows tell. -/
theorem mem_missingOf_graph {report : Report} :
    specifier ∈ (DependencyView.mk report.graph true).missingOf path ↔
      ∃ row ∈ report.unresolved, row.1 = path ∧ specifier ∈ row.2 := by
  show specifier ∈ report.graph.missingOf path ↔ _
  rw [ImportGraph.mem_missingOf, Report.mem_missing_graph]
  constructor
  · rintro ⟨row, hrow, specifier', hspecifier, heq⟩
    cases heq
    exact ⟨row, hrow, rfl, hspecifier⟩
  · rintro ⟨row, hrow, rfl, hspecifier⟩
    exact ⟨row, hrow, specifier, hspecifier, rfl⟩

/-- **Each import that a joined file misses is told once, below its importer**, and what other files
miss is not told at all; a text that shows the trees holds these lines, with what is missing marked
so, behind everything else. -/
theorem dependencyLines_tellsMissing (report : Report) :
    TellsMissing report (dependencyLines report true) ∧
      ∀ connectors showTree, textLines report ⟨connectors, showTree, true, true⟩ =
        textLines report ⟨connectors, showTree, false, true⟩
          ++ (if report.graphEdges.isEmpty then [] else ["", "Dependencies:"])
          ++ (dependencyLines report true).map (·.text connectors) := by
  have hexact : DependencyView.Exact ⟨report.graph, true⟩ (dependencyLines report true) :=
    DependencyView.exact_lines report.closed_graph
  refine ⟨⟨?joined, ?stray, ?listed⟩, textLines_dependencies report true⟩
  case joined =>
    intro row hrow specifier hspecifier hjoins
    exact hexact.toldOnce (Report.mem_connected_graph.mpr hjoins)
      (mem_missingOf_graph.mpr ⟨row, hrow, rfl, hspecifier⟩)
  case stray =>
    intro path hstray specifier line hline htells
    exact hstray (Report.mem_connected_graph.mp (hexact.of_tells hline htells).1)
  case listed =>
    intro line hline path specifier htells
    exact mem_missingOf_graph.mp (hexact.of_tells hline htells).2

/-- A report of a file that imports another, which misses something, and of a file that only misses
something. -/
def strayReport : Report where
  workspaceName := "w"
  rootPath := "/w"
  generatedAt := ""
  totalFiles := 3
  totalSizeMb := 0
  analyzedFiles := 3
  analyzedSizeMb := 0
  mainFile := none
  mainFileSizeMb := none
  folderTree := FolderTree.ofPaths [] "/"
  files := []
  graphNodes := [⟨"a.py", "a.py", 0⟩, ⟨"b.py", "b.py", 0⟩, ⟨"c.py", "c.py", 0⟩]
  graphEdges := [⟨"a.py", "b.py"⟩]
  criticalEntries := []
  unresolved := [("b.py", ["./lost"]), ("c.py", ["./gone"])]
  cancelled := false

theorem dependencyLines_tellsMissing_strayReport :
    strayReport.Joins "b.py" ∧ ToldOnce (dependencyLines strayReport true) "b.py" "./lost" ∧
      (dependencyLines strayReport true).map (·.text .drawn) =
        ["a.py", "└── b.py", "    └── ./lost [UNRESOLVED]"] := by
  have hjoins : strayReport.Joins "b.py" := by decide
  exact ⟨hjoins, (dependencyLines_tellsMissing strayReport).1.joined ("b.py", ["./lost"])
    List.mem_cons_self "./lost" List.mem_cons_self hjoins, by decide +kernel⟩

/-- **What a file misses that no edge joins is left out**: the report lists it, and no line of the
text speaks of it. -/
theorem strayImporter_untold :
    ("c.py", ["./gone"]) ∈ strayReport.unresolved ∧
      (∀ line ∈ dependencyLines strayReport true,
        line.entryOf? "c.py" ≠ some (.missing "./gone")) ∧
      ∀ line ∈ textLines strayReport (.ofStyle "tree"),
        Text.occursIn "./gone".toList line.toList = false := by
  decide +kernel

end Render

end SourceAtlas
