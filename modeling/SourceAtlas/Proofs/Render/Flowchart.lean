/-
# SourceAtlas.Proofs.Render.Flowchart — a flowchart says what the report says.

The lines of a flowchart are read by `FlowLine.read?`.  What they define is the shown paths, each
once, under identifiers that are distinct words; what they link, taken back to paths, is the edges
of the report in their order (`Faithful`).  Grouping by directory puts frames around the
definitions, which moves and indents them, and leaves every other line as it is (`Regrouped`).  Both
hold of every report whose edges join its nodes, whatever the options (`mermaidLines_faithful`).
-/
import SourceAtlas.Proofs.Render.FlowLine
import SourceAtlas.Proofs.Render.Named

namespace SourceAtlas.Render

open FlowLine

variable {report : Report} {named : List NamedPath} {showAll : Bool}

/-! ## Reading the parts -/

/-- A definition is the text of a path under its name. -/
theorem definition_eq (named : List NamedPath) (path : String) :
    definition named path = define (nameOf named path) := rfl

/-- What lines say. -/
def readAll (lines : List String) : List FlowLine :=
  lines.filterMap read?

/-- What lines say of one kind. -/
def said {α : Type} (kind : FlowLine → Option α) (lines : List String) : List α :=
  (readAll lines).filterMap kind

theorem readAll_append (first rest : List String) :
    readAll (first ++ rest) = readAll first ++ readAll rest :=
  List.filterMap_append

theorem said_append {α : Type} (kind : FlowLine → Option α) (first rest : List String) :
    said kind (first ++ rest) = said kind first ++ said kind rest := by
  unfold said
  rw [readAll_append, List.filterMap_append]

/-- Lines that each say something say these things in order. -/
theorem readAll_map {α : Type} {line : α → String} {what : α → FlowLine} {l : List α}
    (h : ∀ a ∈ l, read? (line a) = some (what a)) : readAll (l.map line) = l.map what := by
  unfold readAll
  rw [List.filterMap_map, ← List.filterMap_eq_map]
  exact List.filterMap_congr h

/-- Definitions without frames, one under the other. -/
theorem readAll_definitions (hwords : ∀ n ∈ named, IsIdentifier n.id) :
    readAll (named.map fun n => "    " ++ define n) = named.map node :=
  readAll_map fun n hn => read?_define (hwords n hn)

/-- The line of a definition in a group defines the path under its name. -/
theorem read?_definition (hpaths : (named.map (·.path)).Nodup)
    (hwords : ∀ n ∈ named, IsIdentifier n.id) {path : String}
    (hpath : path ∈ named.map (·.path)) :
    read? ("        " ++ definition named path) = some (node (nameOf named path)) := by
  obtain ⟨n, hn, rfl⟩ := List.mem_map.mp hpath
  rw [definition_eq, nameOf_of_mem hpaths hn, read?_blanks]
  exact read?_define (hwords n hn)

/-- What a group says: where it begins, what it holds, and where it ends. -/
def frameOf (named : List NamedPath) (id : String) (group : String × List String) :
    List FlowLine :=
  opening id group.1 :: (group.2.map fun path => node (nameOf named path)) ++ [closing]

theorem filterMap_node?_frameOf (named : List NamedPath) (id : String)
    (group : String × List String) :
    (frameOf named id group).filterMap node? = group.2.map (nameOf named) := by
  unfold frameOf
  rw [List.cons_append, List.filterMap_cons_none rfl, List.filterMap_append, List.filterMap_map,
    ← List.filterMap_eq_map]
  exact List.append_nil _

theorem filterMap_opening?_frameOf (named : List NamedPath) (id : String)
    (group : String × List String) : (frameOf named id group).filterMap opening? = [id] := by
  unfold frameOf
  have hinner : (group.2.map fun path => node (nameOf named path)).filterMap opening? = [] := by
    rw [List.filterMap_map]
    exact List.filterMap_eq_nil_iff.mpr fun path _ => rfl
  show id :: ((group.2.map fun path => node (nameOf named path)) ++ [closing]).filterMap opening? =
    [id]
  rw [List.filterMap_append, hinner]
  rfl

/-- The lines of a group say what the group says. -/
theorem readAll_groupLines (hpaths : (named.map (·.path)).Nodup)
    (hwords : ∀ n ∈ named, IsIdentifier n.id) {id : String} (hid : IsIdentifier id)
    {group : String × List String} (hgroup : ∀ path ∈ group.2, path ∈ named.map (·.path)) :
    readAll (groupLines named id group) = frameOf named id group := by
  have hnodes : readAll (group.2.map fun path => "        " ++ definition named path) =
      group.2.map fun path => node (nameOf named path) :=
    readAll_map fun path hpath => read?_definition hpaths hwords (hgroup path hpath)
  have hopening : readAll ["    subgraph " ++ id ++ "[" ++ group.1 ++ "]"] =
      [opening id group.1] := by
    unfold readAll
    rw [List.filterMap_cons_some (read?_opening hid group.1)]
    rfl
  have hclosing : readAll ["    end"] = [closing] := by
    unfold readAll
    rw [List.filterMap_cons_some read?_closing]
    rfl
  have hlines : groupLines named id group = ["    subgraph " ++ id ++ "[" ++ group.1 ++ "]"] ++
      (group.2.map fun path => "        " ++ definition named path) ++ ["    end"] := rfl
  rw [hlines, readAll_append, readAll_append, hopening, hnodes, hclosing]
  rfl

/-- Whether a line defines a node. -/
def defines (line : String) : Bool :=
  ((read? line).bind node?).isSome

/-- Of the lines of a group, those of its paths define nodes. -/
theorem filter_defines_groupLines (hpaths : (named.map (·.path)).Nodup)
    (hwords : ∀ n ∈ named, IsIdentifier n.id) {id : String} (hid : IsIdentifier id)
    {group : String × List String} (hgroup : ∀ path ∈ group.2, path ∈ named.map (·.path)) :
    (groupLines named id group).filter defines =
      group.2.map fun path => "        " ++ define (nameOf named path) := by
  have hnodes : (group.2.map fun path => "        " ++ definition named path).filter defines =
      group.2.map fun path => "        " ++ definition named path := by
    rw [List.filter_eq_self]
    intro line hline
    obtain ⟨path, hpath, rfl⟩ := List.mem_map.mp hline
    unfold defines
    rw [read?_definition hpaths hwords (hgroup path hpath)]
    rfl
  have hopening : ["    subgraph " ++ id ++ "[" ++ group.1 ++ "]"].filter defines = [] := by
    rw [List.filter_singleton]
    unfold defines
    rw [read?_opening hid]
    rfl
  have hlines : groupLines named id group = ["    subgraph " ++ id ++ "[" ++ group.1 ++ "]"] ++
      (group.2.map fun path => "        " ++ definition named path) ++ ["    end"] := rfl
  rw [hlines, List.filter_append, List.filter_append, hopening, hnodes]
  exact List.append_nil _

/-- The other lines of a group are where it begins and where it ends. -/
theorem read?_of_mem_groupLines {id : String} (hid : IsIdentifier id)
    {group : String × List String} {line : String} (hline : line ∈ groupLines named id group) :
    (∃ path ∈ group.2, line = "        " ++ definition named path) ∨
      read? line = some (opening id group.1) ∨ read? line = some closing := by
  unfold groupLines at hline
  rcases List.mem_append.mp hline with hline | hline
  · rcases List.mem_cons.mp hline with rfl | hline
    · exact Or.inr (Or.inl (read?_opening hid group.1))
    · obtain ⟨path, hpath, rfl⟩ := List.mem_map.mp hline
      exact Or.inl ⟨path, hpath, rfl⟩
  · rw [List.mem_singleton.mp hline]
    exact Or.inr (Or.inr read?_closing)

/-- The line of an import whose ends are named says the identifiers of its ends. -/
theorem edgeLine?_of_mem (hpaths : (named.map (·.path)).Nodup)
    (hwords : ∀ n ∈ named, IsIdentifier n.id) {edge : Edge}
    (hsource : edge.source ∈ named.map (·.path)) (htarget : edge.target ∈ named.map (·.path)) :
    ∃ line, edgeLine? named edge = some line ∧
      read? line = some (link (linkOf named edge).1 (linkOf named edge).2) := by
  obtain ⟨n, hn, hnpath⟩ := List.mem_map.mp hsource
  obtain ⟨m, hm, hmpath⟩ := List.mem_map.mp htarget
  have hline : edgeLine? named edge = some ("    " ++ n.id ++ " --> " ++ m.id) := by
    unfold edgeLine?
    rw [← hnpath, ← hmpath, idOf?_of_mem hpaths hn, idOf?_of_mem hpaths hm]
    rfl
  refine ⟨_, hline, ?_⟩
  unfold linkOf
  rw [← hnpath, ← hmpath, nameOf_of_mem hpaths hn, nameOf_of_mem hpaths hm]
  exact read?_link (hwords n hn) (hwords m hm)

/-- An import with an end that is not named has no line. -/
theorem edgeLine?_of_not_mem {edge : Edge}
    (h : ¬ (edge.source ∈ named.map (·.path) ∧ edge.target ∈ named.map (·.path))) :
    edgeLine? named edge = none := by
  rcases Decidable.not_and_iff_or_not.mp h with hsource | htarget
  · unfold edgeLine?
    rw [idOf?_of_not_mem hsource]
    rfl
  · unfold edgeLine?
    rw [idOf?_of_not_mem htarget]
    cases idOf? named edge.source with
    | none => rfl
    | some id => rfl

/-- What stands for a path is a word. -/
theorem isIdentifier_of_idOf? (hwords : ∀ n ∈ named, IsIdentifier n.id) {path id : String}
    (h : idOf? named path = some id) : IsIdentifier id := by
  obtain ⟨n, hfind, rfl⟩ := Option.map_eq_some_iff.mp h
  exact hwords n (List.mem_reverse.mp (List.mem_of_find?_eq_some hfind))

/-- A line of an import joins two identifiers. -/
theorem edgeLine?_eq_some (hwords : ∀ n ∈ named, IsIdentifier n.id) {edge : Edge} {line : String}
    (hline : edgeLine? named edge = some line) :
    ∃ source target, IsIdentifier source ∧ IsIdentifier target ∧
      line = "    " ++ source ++ " --> " ++ target := by
  obtain ⟨source, hsource, hline⟩ := Option.bind_eq_some_iff.mp hline
  obtain ⟨target, htarget, hline⟩ := Option.bind_eq_some_iff.mp hline
  exact ⟨source, target, isIdentifier_of_idOf? hwords hsource,
    isIdentifier_of_idOf? hwords htarget, (Option.some.inj hline).symm⟩

/-- A style line styles an identifier, in one line. -/
theorem exists_of_mem_styleLines (hwords : ∀ n ∈ named, IsIdentifier n.id) {line : String}
    (hline : line ∈ styleLines named report) :
    ∃ id look, IsIdentifier id ∧ '\n' ∉ look.toList ∧ line = styleLine id look := by
  unfold styleLines at hline
  rcases List.mem_append.mp hline with hline | hline
  · obtain ⟨path, -, hpath⟩ := List.mem_filterMap.mp hline
    obtain ⟨id, hfound, rfl⟩ := Option.map_eq_some_iff.mp hpath
    exact ⟨id, _, isIdentifier_of_idOf? hwords hfound, by decide, rfl⟩
  · obtain ⟨id, hmain, rfl⟩ := Option.map_eq_some_iff.mp (Option.mem_toList.mp hline)
    obtain ⟨path, -, hfound⟩ := Option.bind_eq_some_iff.mp hmain
    exact ⟨id, _, isIdentifier_of_idOf? hwords hfound, by decide, rfl⟩

/-! ## The whole -/

/-- The lines that define the shown paths, in groups or not. -/
def definitionsOf (report : Report) (showAll grouped : Bool) : List String :=
  definitionLines (namesOf report showAll) (identifiersFor [] (shownPaths report showAll)).2
    (shownPaths report showAll) grouped

/-- The lines behind the definitions: the imports, and the styles if there are any. -/
def linesBehind (report : Report) (showAll highlight : Bool) : List String :=
  let styles := if highlight then styleLines (namesOf report showAll) report else []
  ("" :: report.graphEdges.filterMap (edgeLine? (namesOf report showAll)))
    ++ if styles.isEmpty then [] else "" :: styles

theorem mermaidLines_eq (report : Report) (options : MermaidOptions) :
    mermaidLines report options = ("flowchart " ++ options.orientation) ::
      (definitionsOf report options.showAll options.groupByDirectory
        ++ linesBehind report options.showAll options.highlightCritical) := by
  show ("flowchart " ++ options.orientation) ::
    definitionsOf report options.showAll options.groupByDirectory ++ _ ++ _ = _
  rw [List.append_assoc, List.cons_append]
  rfl

/-- The frames of the groups, with the definitions in them. -/
theorem definitionsOf_grouped (report : Report) (showAll : Bool) :
    definitionsOf report showAll true =
      ((groupIds report showAll).zip (groupsOf (shownPaths report showAll))).flatMap
        fun (id, group) => groupLines (namesOf report showAll) id group := rfl

theorem length_groupIds (report : Report) (showAll : Bool) :
    (groupIds report showAll).length = (groupsOf (shownPaths report showAll)).length := by
  unfold groupIds
  rw [length_identifiersFor, List.length_map]

/-- What is made of the paths of all groups is made of the shown paths. -/
theorem flatMap_groups_perm {α : Type} (f : String → α) (report : Report) (showAll : Bool) :
    (((groupIds report showAll).zip (groupsOf (shownPaths report showAll))).flatMap
      fun (_, group) => group.2.map f).Perm ((shownPaths report showAll).map f) := by
  have hgroups : (((groupIds report showAll).zip (groupsOf (shownPaths report showAll))).flatMap
      fun (_, group) => group.2.map f) =
        ((groupsOf (shownPaths report showAll)).flatMap (·.2)).map f := by
    rw [List.map_flatMap]
    conv_rhs => rw [← List.map_snd_zip (length_groupIds report showAll).ge, List.flatMap_map]
  rw [hgroups]
  exact (flatMap_groupsOf_perm _).map f

/-- The identifier of a group is a word, and its paths are named. -/
theorem of_mem_groups {id : String} {group : String × List String}
    (hmem : (id, group) ∈ (groupIds report showAll).zip (groupsOf (shownPaths report showAll))) :
    IsIdentifier id ∧ ∀ path ∈ group.2, path ∈ (namesOf report showAll).map (·.path) := by
  obtain ⟨hid, hgroup⟩ := List.of_mem_zip hmem
  refine ⟨isIdentifier_of_mem (List.mem_append_right _ hid), fun path hpath => ?_⟩
  rw [map_path_namesOf]
  exact (flatMap_groupsOf_perm _).mem_iff.mp (List.mem_flatMap.mpr ⟨group, hgroup, hpath⟩)

/-- The identifiers of shown paths are words. -/
theorem isIdentifier_of_mem_namesOf : ∀ n ∈ namesOf report showAll, IsIdentifier n.id :=
  fun _ hn => isIdentifier_of_mem (List.mem_append_left _ (List.mem_map_of_mem hn))

/-- What is said of a kind by a chart whose definitions and further lines are read. -/
theorem said_mermaidLines {α : Type} (kind : FlowLine → Option α) (report : Report)
    (options : MermaidOptions) :
    said kind (mermaidLines report options) =
      said kind (definitionsOf report options.showAll options.groupByDirectory) ++
        said kind (linesBehind report options.showAll options.highlightCritical) := by
  rw [mermaidLines_eq, ← said_append]
  unfold said readAll
  rw [List.filterMap_cons_none (read?_header _)]

/-- Behind the definitions there are imports, styles and blank lines. -/
theorem mem_linesBehind {highlight : Bool} {line : String}
    (hline : line ∈ linesBehind report showAll highlight) :
    line = "" ∨
      (∃ source target, IsIdentifier source ∧ IsIdentifier target ∧
        line = "    " ++ source ++ " --> " ++ target) ∨
      ∃ id look, IsIdentifier id ∧ '\n' ∉ look.toList ∧ line = styleLine id look := by
  by_cases hblank : line = ""
  · exact Or.inl hblank
  right
  unfold linesBehind at hline
  rcases List.mem_append.mp hline with hline | hline
  · obtain ⟨edge, -, hedge⟩ := List.mem_filterMap.mp (List.mem_of_ne_of_mem hblank hline)
    exact Or.inl (edgeLine?_eq_some isIdentifier_of_mem_namesOf hedge)
  · have hstyle : line ∈ styleLines (namesOf report showAll) report := by
      cases highlight with
      | false => cases hline
      | true =>
          simp only [if_true] at hline
          split at hline
          · cases hline
          · exact List.mem_of_ne_of_mem hblank hline
    exact Or.inr (exists_of_mem_styleLines isIdentifier_of_mem_namesOf hstyle)

/-- Imports and styles are all that is said behind the definitions. -/
theorem link_or_style_of_mem {highlight : Bool} {what : FlowLine}
    (hwhat : what ∈ readAll (linesBehind report showAll highlight)) :
    (∃ source target, what = link source target) ∨ ∃ id look, what = style id look := by
  obtain ⟨line, hline, hread⟩ := List.mem_filterMap.mp hwhat
  rcases mem_linesBehind hline with rfl | ⟨source, target, hsource, htarget, rfl⟩ |
    ⟨id, look, hid, -, rfl⟩
  · cases hread
  · rw [read?_link hsource htarget] at hread
    exact Or.inl ⟨source, target, (Option.some.inj hread).symm⟩
  · rw [read?_style hid] at hread
    exact Or.inr ⟨id, look, (Option.some.inj hread).symm⟩

/-- Nothing behind the definitions defines a node or begins a group. -/
theorem said_linesBehind_eq_nil {α : Type} {kind : FlowLine → Option α}
    (hlink : ∀ source target, kind (link source target) = none)
    (hstyle : ∀ id look, kind (style id look) = none) (showAll highlight : Bool) :
    said kind (linesBehind report showAll highlight) = [] := by
  refine List.filterMap_eq_nil_iff.mpr fun what hwhat => ?_
  obtain ⟨source, target, rfl⟩ | ⟨id, look, rfl⟩ := link_or_style_of_mem hwhat
  · exact hlink source target
  · exact hstyle id look

/-- What styles say is of no other kind. -/
theorem said_styleLines {α : Type} {kind : FlowLine → Option α}
    (hstyle : ∀ id look, kind (style id look) = none) (showAll : Bool) :
    said kind (styleLines (namesOf report showAll) report) = [] := by
  refine List.filterMap_eq_nil_iff.mpr fun what hwhat => ?_
  obtain ⟨line, hline, hread⟩ := List.mem_filterMap.mp hwhat
  obtain ⟨id, look, hid, -, rfl⟩ := exists_of_mem_styleLines isIdentifier_of_mem_namesOf hline
  rw [read?_style hid] at hread
  rw [← Option.some.inj hread]
  exact hstyle id look

section Shown

variable (distinct : (report.graphNodes.map (·.id)).Nodup)
include distinct

theorem nodup_map_path_namesOf (showAll : Bool) :
    ((namesOf report showAll).map (·.path)).Nodup := by
  rw [map_path_namesOf]
  exact nodup_shownPaths distinct showAll

/-- Without groups, the definitions stand one under the other. -/
theorem definitionsOf_plain (showAll : Bool) :
    definitionsOf report showAll false =
      (namesOf report showAll).map fun n => "    " ++ define n := by
  show (shownPaths report showAll).map (fun path =>
    "    " ++ definition (namesOf report showAll) path) = _
  rw [← map_path_namesOf, List.map_map]
  refine List.map_congr_left fun n hn => ?_
  show "    " ++ definition _ n.path = _
  rw [definition_eq, nameOf_of_mem (nodup_map_path_namesOf distinct showAll) hn]

/-- What the frames of the groups say, group for group. -/
theorem readAll_definitionsOf_grouped (showAll : Bool) :
    readAll (definitionsOf report showAll true) =
      ((groupIds report showAll).zip (groupsOf (shownPaths report showAll))).flatMap
        fun (id, group) => frameOf (namesOf report showAll) id group := by
  rw [definitionsOf_grouped]
  unfold readAll
  rw [List.filterMap_flatMap]
  refine List.flatMap_congr fun (id, group) hmem => ?_
  obtain ⟨hid, hgroup⟩ := of_mem_groups hmem
  exact readAll_groupLines (nodup_map_path_namesOf distinct showAll) isIdentifier_of_mem_namesOf
    hid hgroup

/-- **The definitions define each shown path once**, in groups or not. -/
theorem said_node_definitionsOf (showAll grouped : Bool) :
    (said node? (definitionsOf report showAll grouped)).Perm (namesOf report showAll) := by
  cases grouped with
  | false =>
      unfold said
      rw [definitionsOf_plain distinct, readAll_definitions isIdentifier_of_mem_namesOf,
        List.filterMap_map]
      exact List.Perm.of_eq List.filterMap_some
  | true =>
      have hgroups : said node? (definitionsOf report showAll true) =
          ((groupIds report showAll).zip (groupsOf (shownPaths report showAll))).flatMap
            fun (_, group) => group.2.map (nameOf (namesOf report showAll)) := by
        unfold said
        rw [readAll_definitionsOf_grouped distinct, List.filterMap_flatMap]
        exact List.flatMap_congr fun (id, group) _ => filterMap_node?_frameOf _ id group
      rw [hgroups]
      refine (flatMap_groups_perm _ report showAll).trans (List.Perm.of_eq ?_)
      rw [← map_path_namesOf]
      exact map_nameOf (nodup_map_path_namesOf distinct showAll)

/-- The groups that begin are all groups, each once, or none. -/
theorem said_opening_definitionsOf (showAll grouped : Bool) :
    said opening? (definitionsOf report showAll grouped) =
      if grouped then groupIds report showAll else [] := by
  cases grouped with
  | false =>
      unfold said
      rw [definitionsOf_plain distinct, readAll_definitions isIdentifier_of_mem_namesOf,
        List.filterMap_map]
      exact List.filterMap_eq_nil_iff.mpr fun n _ => rfl
  | true =>
      unfold said
      rw [readAll_definitionsOf_grouped distinct, List.filterMap_flatMap]
      have hfst := List.map_fst_zip (length_groupIds report showAll).le
      refine Eq.trans ?_ hfst
      rw [← List.flatMap_pure_eq_map]
      exact List.flatMap_congr fun (id, group) _ => filterMap_opening?_frameOf _ id group

/-- Definitions link nothing and style nothing. -/
theorem said_definitionsOf_eq_nil {α : Type} {kind : FlowLine → Option α}
    (hnode : ∀ n, kind (node n) = none) (hopening : ∀ id title, kind (opening id title) = none)
    (hclosing : kind closing = none) (showAll grouped : Bool) :
    said kind (definitionsOf report showAll grouped) = [] := by
  unfold said
  refine List.filterMap_eq_nil_iff.mpr fun what hwhat => ?_
  cases grouped with
  | false =>
      rw [definitionsOf_plain distinct, readAll_definitions isIdentifier_of_mem_namesOf] at hwhat
      obtain ⟨n, -, rfl⟩ := List.mem_map.mp hwhat
      exact hnode n
  | true =>
      rw [readAll_definitionsOf_grouped distinct] at hwhat
      obtain ⟨⟨id, group⟩, -, hwhat⟩ := List.mem_flatMap.mp hwhat
      rcases List.mem_append.mp hwhat with hwhat | hwhat
      · rcases List.mem_cons.mp hwhat with rfl | hwhat
        · exact hopening id group.1
        · obtain ⟨path, -, rfl⟩ := List.mem_map.mp hwhat
          exact hnode _
      · rw [List.mem_singleton.mp hwhat]
        exact hclosing

/-- Of the frames, the lines that define nodes are the definitions without groups, further in. -/
theorem filter_defines_definitionsOf (showAll : Bool) :
    ((definitionsOf report showAll true).filter defines).Perm
      ((namesOf report showAll).map fun n => "        " ++ define n) := by
  have hgroups : (definitionsOf report showAll true).filter defines =
      ((groupIds report showAll).zip (groupsOf (shownPaths report showAll))).flatMap
        fun (_, group) => group.2.map fun path =>
          "        " ++ define (nameOf (namesOf report showAll) path) := by
    rw [definitionsOf_grouped, List.filter_flatMap]
    refine List.flatMap_congr fun (id, group) hmem => ?_
    obtain ⟨hid, hgroup⟩ := of_mem_groups hmem
    exact filter_defines_groupLines (nodup_map_path_namesOf distinct showAll)
      isIdentifier_of_mem_namesOf hid hgroup
  rw [hgroups]
  refine (flatMap_groups_perm _ report showAll).trans (List.Perm.of_eq ?_)
  conv_rhs => rw [← map_nameOf (nodup_map_path_namesOf distinct showAll), map_path_namesOf,
    List.map_map]
  rfl

/-- The other lines of the frames are where a group begins or ends. -/
theorem read?_of_mem_definitionsOf (showAll : Bool) {line : String}
    (hline : line ∈ definitionsOf report showAll true) (hframe : defines line = false) :
    (∃ id title, read? line = some (opening id title)) ∨ read? line = some closing := by
  rw [definitionsOf_grouped] at hline
  obtain ⟨⟨id, group⟩, hmem, hline⟩ := List.mem_flatMap.mp hline
  obtain ⟨hid, hgroup⟩ := of_mem_groups hmem
  rcases read?_of_mem_groupLines hid hline with ⟨path, hpath, rfl⟩ | hopening | hclosing
  · unfold defines at hframe
    rw [read?_definition (nodup_map_path_namesOf distinct showAll) isIdentifier_of_mem_namesOf
      (hgroup path hpath)] at hframe
    cases hframe
  · exact Or.inl ⟨id, group.1, hopening⟩
  · exact Or.inr hclosing

/-- The lines of the imports say the imports between shown paths in their order. -/
theorem readAll_edgeLines (showAll : Bool) :
    readAll (report.graphEdges.filterMap (edgeLine? (namesOf report showAll))) =
      (shownEdges report showAll).map fun edge =>
        link (linkOf (namesOf report showAll) edge).1 (linkOf (namesOf report showAll) edge).2 := by
  unfold readAll shownEdges
  rw [List.filterMap_filterMap, ← List.filterMap_eq_map, List.filterMap_filter]
  refine List.filterMap_congr fun edge _ => ?_
  rw [← map_path_namesOf]
  split
  · rename_i hshown
    obtain ⟨hsource, htarget⟩ := of_decide_eq_true hshown
    obtain ⟨line, hline, hread⟩ := edgeLine?_of_mem (nodup_map_path_namesOf distinct showAll)
      isIdentifier_of_mem_namesOf hsource htarget
    rw [hline]
    exact hread
  · rename_i hhidden
    rw [edgeLine?_of_not_mem fun hshown => hhidden (decide_eq_true hshown)]
    rfl

/-- Behind the definitions stand the imports, and of other kinds only styles. -/
theorem said_linesBehind {α : Type} {kind : FlowLine → Option α}
    (hstyle : ∀ id look, kind (style id look) = none) (showAll highlight : Bool) :
    said kind (linesBehind report showAll highlight) =
      ((shownEdges report showAll).map fun edge => link (linkOf (namesOf report showAll) edge).1
        (linkOf (namesOf report showAll) edge).2).filterMap kind := by
  have hblank : ∀ lines, said kind ("" :: lines) = said kind lines := by
    intro lines
    unfold said readAll
    rw [List.filterMap_cons_none read?_blank]
  have hstyles : ∀ styles, said kind styles = [] →
      said kind (if styles.isEmpty then [] else "" :: styles) = [] := by
    intro styles hnil
    split
    · rfl
    · exact (hblank styles).trans hnil
  have hstyled : said kind (if highlight then styleLines (namesOf report showAll) report else []) =
      [] := by
    cases highlight with
    | false => rfl
    | true => exact said_styleLines hstyle showAll
  unfold linesBehind
  rw [said_append, hblank, hstyles _ hstyled, List.append_nil]
  unfold said
  rw [readAll_edgeLines distinct]

end Shown

/-! ## Faithful charts -/

/-- **`Faithful report options`** — the lines of the chart say what the report says, through
identifiers that can be taken back to paths. -/
structure Faithful (report : Report) (options : MermaidOptions) : Prop where
  /-- The named paths are those shown, in their order. -/
  shown : (namesOf report options.showAll).map (·.path) = shownPaths report options.showAll
  /-- No path is shown twice. -/
  once : (shownPaths report options.showAll).Nodup
  /-- No two nodes or groups have one identifier. -/
  distinct : ((namesOf report options.showAll).map (·.id) ++
    groupIds report options.showAll).Nodup
  words : ∀ id ∈ (namesOf report options.showAll).map (·.id) ++ groupIds report options.showAll,
    IsIdentifier id
  /-- The lines that define nodes define each named path once, and nothing else. -/
  nodes : (said node? (mermaidLines report options)).Perm (namesOf report options.showAll)
  /-- The groups that begin have the identifiers of the groups, each once. -/
  groups : said opening? (mermaidLines report options) =
    if options.groupByDirectory then groupIds report options.showAll else []
  /-- Links join identifiers of nodes. -/
  joined : ∀ ids ∈ said link? (mermaidLines report options),
    ids.1 ∈ (namesOf report options.showAll).map (·.id) ∧
      ids.2 ∈ (namesOf report options.showAll).map (·.id)
  /-- Taken back to paths, the links are the imports in their order, each as often as it is one. -/
  links : (said link? (mermaidLines report options)).map
    (edgeOf? (namesOf report options.showAll)) = report.graphEdges.map some

/-- **`Regrouped named plain grouped`** — one chart groups the nodes that the other lists, and makes
no other difference. -/
structure Regrouped (named : List NamedPath) (plain grouped : List String) : Prop where
  nodes : (said node? grouped).Perm (said node? plain)
  links : said link? grouped = said link? plain
  styles : said style? grouped = said style? plain
  /-- Definitions move and go further in, frames are put around them, and the lines before and behind
  stay as they are. -/
  layout : ∃ header frames rest,
    plain = header :: ((named.map fun n => "    " ++ define n) ++ rest) ∧
    grouped = header :: (frames ++ rest) ∧
    (frames.filter defines).Perm (named.map fun n => "        " ++ define n) ∧
    ∀ line ∈ frames, defines line = false →
      (∃ id title, read? line = some (opening id title)) ∨ read? line = some closing

section Shown

variable (distinct : (report.graphNodes.map (·.id)).Nodup)
include distinct

/-- The chart defines the shown paths, each once. -/
theorem said_node_mermaidLines (options : MermaidOptions) :
    (said node? (mermaidLines report options)).Perm (namesOf report options.showAll) := by
  rw [said_mermaidLines, said_linesBehind_eq_nil (fun _ _ => rfl) fun _ _ => rfl, List.append_nil]
  exact said_node_definitionsOf distinct _ _

/-- Grouping regroups, whatever the report. -/
theorem regrouped_mermaidLines (options : MermaidOptions) :
    Regrouped (namesOf report options.showAll)
      (mermaidLines report { options with groupByDirectory := false })
      (mermaidLines report { options with groupByDirectory := true }) where
  nodes := by
    rw [said_mermaidLines, said_mermaidLines]
    refine List.Perm.append_right _ ?_
    exact (said_node_definitionsOf distinct _ _).trans (said_node_definitionsOf distinct _ _).symm
  links := by
    rw [said_mermaidLines, said_mermaidLines,
      said_definitionsOf_eq_nil distinct (fun _ => rfl) (fun _ _ => rfl) rfl,
      said_definitionsOf_eq_nil distinct (fun _ => rfl) (fun _ _ => rfl) rfl]
  styles := by
    rw [said_mermaidLines, said_mermaidLines,
      said_definitionsOf_eq_nil distinct (fun _ => rfl) (fun _ _ => rfl) rfl,
      said_definitionsOf_eq_nil distinct (fun _ => rfl) (fun _ _ => rfl) rfl]
  layout := by
    refine ⟨_, definitionsOf report options.showAll true,
      linesBehind report options.showAll options.highlightCritical, ?_, mermaidLines_eq _ _,
      filter_defines_definitionsOf distinct _, fun line hline hframe =>
        read?_of_mem_definitionsOf distinct _ hline hframe⟩
    rw [mermaidLines_eq, definitionsOf_plain distinct]

/-- The links of a chart are those of the imports between shown paths. -/
theorem said_link_mermaidLines (options : MermaidOptions) :
    said link? (mermaidLines report options) =
      (shownEdges report options.showAll).map (linkOf (namesOf report options.showAll)) := by
  rw [said_mermaidLines, said_definitionsOf_eq_nil distinct (fun _ => rfl) (fun _ _ => rfl) rfl,
    said_linesBehind distinct fun _ _ => rfl, List.filterMap_map, ← List.filterMap_eq_map]
  rfl

/-- Taken back to paths, the links of a chart are the imports between shown paths. -/
theorem map_edgeOf_said_link (options : MermaidOptions) :
    (said link? (mermaidLines report options)).map (edgeOf? (namesOf report options.showAll)) =
      (shownEdges report options.showAll).map some := by
  rw [said_link_mermaidLines distinct, List.map_map]
  refine List.map_congr_left fun edge hedge => ?_
  have hshown := of_decide_eq_true (List.mem_filter.mp hedge).2
  rw [← map_path_namesOf] at hshown
  exact edgeOf?_linkOf (nodup_map_path_namesOf distinct options.showAll)
    (List.nodup_append.mp (nodup_ids report options.showAll)).1 hshown.1 hshown.2

variable (ends : ∀ edge ∈ report.graphEdges, edge.source ∈ report.graphNodes.map (·.id) ∧
  edge.target ∈ report.graphNodes.map (·.id))
include ends

theorem faithful_mermaidLines (options : MermaidOptions) : Faithful report options := by
  have hpaths := nodup_map_path_namesOf distinct options.showAll
  refine ⟨map_path_namesOf _ _, nodup_shownPaths distinct _, nodup_ids _ _,
    fun id hid => isIdentifier_of_mem hid, ?nodes, ?groups, ?joined, ?links⟩
  case nodes => exact said_node_mermaidLines distinct options
  case groups =>
    rw [said_mermaidLines, said_linesBehind_eq_nil (fun _ _ => rfl) fun _ _ => rfl,
      List.append_nil]
    exact said_opening_definitionsOf distinct _ _
  case joined =>
    rw [said_link_mermaidLines distinct]
    intro ids hmem
    obtain ⟨edge, hedge, rfl⟩ := List.mem_map.mp hmem
    have hshown := of_decide_eq_true (List.mem_filter.mp hedge).2
    rw [← map_path_namesOf] at hshown
    exact ⟨id_nameOf_mem hpaths hshown.1, id_nameOf_mem hpaths hshown.2⟩
  case links =>
    rw [map_edgeOf_said_link distinct, shownEdges_eq ends]

end Shown

/-- **A flowchart says what the report says.**  The search for an identifier ends with the first
that is free; and of a report that has no node twice and whose edges join its nodes, every chart is
faithful, with groups and without, and groups are all the difference that grouping makes. -/
theorem mermaidLines_faithful (report : Report)
    (distinct : (report.graphNodes.map (·.id)).Nodup)
    (ends : ∀ edge ∈ report.graphEdges, edge.source ∈ report.graphNodes.map (·.id) ∧
      edge.target ∈ report.graphNodes.map (·.id)) :
    (∀ taken value, FirstFree taken value (identifierFor taken value)) ∧
      ∀ options, Faithful report options ∧
        Regrouped (namesOf report options.showAll)
          (mermaidLines report { options with groupByDirectory := false })
          (mermaidLines report { options with groupByDirectory := true }) :=
  ⟨identifierFor_firstFree, fun options =>
    ⟨faithful_mermaidLines distinct ends options, regrouped_mermaidLines distinct options⟩⟩

/-- A report whose paths are hard to tell apart once they are identifiers. -/
def collidingReport : Report where
  workspaceName := "w"
  rootPath := "/w"
  generatedAt := ""
  totalFiles := 4
  totalSizeMb := 0
  analyzedFiles := 4
  analyzedSizeMb := 0
  mainFile := some "a/b"
  mainFileSizeMb := none
  folderTree := FolderTree.ofPaths [] "w"
  files := []
  graphNodes := [⟨"a/b", "b", 0⟩, ⟨"a_b", "a_b", 0⟩, ⟨"a_b_2", "a_b_2", 0⟩, ⟨"dir/a", "a", 0⟩]
  graphEdges := [⟨"a/b", "a_b"⟩, ⟨"a_b", "a_b_2"⟩, ⟨"dir/a", "a/b"⟩]
  criticalEntries := []
  unresolved := []
  cancelled := false

/-- The identifiers of `a_b` and `a_b_2` make way for that of `a/b`, and that of the group `a` for
that of `dir/a`. -/
theorem mermaidLines_faithful_colliding :
    (namesOf collidingReport false).map (·.id) = ["a_b", "a_b_2", "a_b_2_2", "dir_a"] ∧
      groupIds collidingReport false = ["dir_a_2", "dir_dir", "dir_root"] ∧
      Faithful collidingReport ⟨"LR", true, false, true⟩ ∧
      Regrouped (namesOf collidingReport false)
        (mermaidLines collidingReport ⟨"LR", false, false, true⟩)
        (mermaidLines collidingReport ⟨"LR", true, false, true⟩) := by
  have h := (mermaidLines_faithful collidingReport (by decide +kernel) (by decide +kernel)).2
    ⟨"LR", true, false, true⟩
  exact ⟨by decide +kernel, by decide +kernel, h.1, h.2⟩

end SourceAtlas.Render
