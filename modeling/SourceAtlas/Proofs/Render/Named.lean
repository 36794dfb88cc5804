/-
# SourceAtlas.Proofs.Render.Named — the names of a flowchart.

Every shown path has an identifier and every group has one; all of them are words, and no two are
the same (`nodup_ids`).  So a path stands for its identifier and the identifier for its path
(`idOf?_of_mem`, `pathOf?_of_mem`), and an import can be told from the identifiers of its ends
(`edgeOf?_linkOf`).  The groups hold every shown path once (`flatMap_groupsOf_perm`).
-/
import SourceAtlas.Proofs.Keyed
import SourceAtlas.Proofs.Render.Identifier

namespace SourceAtlas.Render

variable {report : Report} {named : List NamedPath} {showAll : Bool}

/-! ## What is named -/

/-- The shown paths with their identifiers. -/
def namesOf (report : Report) (showAll : Bool) : List NamedPath :=
  ((shownPaths report showAll).zip (identifiersFor [] (shownPaths report showAll)).1).map
    fun (path, id) => ⟨path, id⟩

/-- The identifiers of the groups of shown paths. -/
def groupIds (report : Report) (showAll : Bool) : List String :=
  (identifiersFor (identifiersFor [] (shownPaths report showAll)).2
    ((groupsOf (shownPaths report showAll)).map fun group => "dir_" ++ group.1)).1

/-- The path of an identifier. -/
def pathOf? (named : List NamedPath) (id : String) : Option String :=
  (named.find? (·.id == id)).map (·.path)

/-- The import that a link of two identifiers tells of. -/
def edgeOf? (named : List NamedPath) (ids : String × String) : Option Edge := do
  return ⟨← pathOf? named ids.1, ← pathOf? named ids.2⟩

theorem map_path_namesOf (report : Report) (showAll : Bool) :
    (namesOf report showAll).map (·.path) = shownPaths report showAll := by
  unfold namesOf
  rw [List.map_map]
  exact List.map_fst_zip (Nat.le_of_eq (length_identifiersFor _ _).symm)

theorem map_id_namesOf (report : Report) (showAll : Bool) :
    (namesOf report showAll).map (·.id) =
      (identifiersFor [] (shownPaths report showAll)).1 := by
  unfold namesOf
  rw [List.map_map]
  exact List.map_snd_zip (Nat.le_of_eq (length_identifiersFor _ _))

/-- Identifiers of nodes and groups are distinct. -/
theorem nodup_ids (report : Report) (showAll : Bool) :
    ((namesOf report showAll).map (·.id) ++ groupIds report showAll).Nodup := by
  rw [map_id_namesOf]
  obtain ⟨hnodes, -⟩ := nodup_identifiersFor (shownPaths report showAll) []
  obtain ⟨hgroups, hnew⟩ := nodup_identifiersFor
    ((groupsOf (shownPaths report showAll)).map fun group => "dir_" ++ group.1)
    (identifiersFor [] (shownPaths report showAll)).2
  refine List.nodup_append.mpr ⟨hnodes, hgroups, ?_⟩
  rintro id hnode id' hgroup rfl
  exact hnew id hgroup ((mem_taken_identifiersFor _ _).mpr (Or.inl hnode))

theorem isIdentifier_of_mem {id : String}
    (h : id ∈ (namesOf report showAll).map (·.id) ++ groupIds report showAll) :
    IsIdentifier id := by
  rw [map_id_namesOf] at h
  rcases List.mem_append.mp h with h | h
  · exact isIdentifier_of_mem_identifiersFor _ _ h
  · exact isIdentifier_of_mem_identifiersFor _ _ h

/-- No path is shown twice. -/
theorem nodup_shownPaths (distinct : (report.graphNodes.map (·.id)).Nodup) (showAll : Bool) :
    (shownPaths report showAll).Nodup := by
  unfold shownPaths
  split
  · exact (List.mergeSort_perm _ _).nodup_iff.mpr distinct
  · exact OrderedSet.nodup_of_increasing (OrderedSet.increasing _)

/-- Both ends of an edge are shown. -/
theorem ends_mem_shownPaths
    (ends : ∀ edge ∈ report.graphEdges, edge.source ∈ report.graphNodes.map (·.id) ∧
      edge.target ∈ report.graphNodes.map (·.id))
    (showAll : Bool) {edge : Edge} (hedge : edge ∈ report.graphEdges) :
    edge.source ∈ shownPaths report showAll ∧ edge.target ∈ shownPaths report showAll := by
  unfold shownPaths
  split
  · rw [List.mem_mergeSort, List.mem_mergeSort]
    exact ends edge hedge
  · have hmem : ∀ path ∈ [edge.source, edge.target], path ∈ (OrderedSet.ofList
        (report.graphEdges.flatMap (fun edge => [edge.source, edge.target])
          ++ report.mainFile.toList)).toList := by
      intro path hpath
      rw [← OrderedSet.mem_def, OrderedSet.mem_ofList]
      exact List.mem_append_left _ (List.mem_flatMap.mpr ⟨edge, hedge, hpath⟩)
    exact ⟨hmem _ List.mem_cons_self, hmem _ (List.mem_cons_of_mem _ List.mem_cons_self)⟩

/-- The edges between shown paths, in their order. -/
def shownEdges (report : Report) (showAll : Bool) : List Edge :=
  report.graphEdges.filter fun edge =>
    edge.source ∈ shownPaths report showAll ∧ edge.target ∈ shownPaths report showAll

/-- Edges that join nodes are edges between shown paths. -/
theorem shownEdges_eq
    (ends : ∀ edge ∈ report.graphEdges, edge.source ∈ report.graphNodes.map (·.id) ∧
      edge.target ∈ report.graphNodes.map (·.id))
    (showAll : Bool) : shownEdges report showAll = report.graphEdges :=
  List.filter_eq_self.mpr fun _ hedge => decide_eq_true (ends_mem_shownPaths ends showAll hedge)

/-! ## Names and paths -/

/-- Where paths are distinct, each is named by its own identifier. -/
theorem idOf?_of_mem (hpaths : (named.map (·.path)).Nodup) {n : NamedPath} (hn : n ∈ named) :
    idOf? named n.path = some n.id := by
  have hdistinct : (named.reverse.map (·.path)).Nodup := by
    rw [List.map_reverse, List.nodup_reverse]
    exact hpaths
  unfold idOf?
  rw [find?_of_nodup hdistinct (List.mem_reverse.mpr hn)]
  rfl

/-- What is not named has no identifier. -/
theorem idOf?_of_not_mem {path : String} (h : path ∉ named.map (·.path)) : idOf? named path = none := by
  unfold idOf?
  rw [Option.map_eq_none_iff, List.find?_eq_none]
  intro n hn heq
  exact h (List.mem_map.mpr ⟨n, List.mem_reverse.mp hn, eq_of_beq heq⟩)

/-- Where identifiers are distinct, each stands for its own path. -/
theorem pathOf?_of_mem (hids : (named.map (·.id)).Nodup) {n : NamedPath} (hn : n ∈ named) :
    pathOf? named n.id = some n.path := by
  unfold pathOf?
  rw [find?_of_nodup hids hn]
  rfl

/-- A path under the name that it has. -/
def nameOf (named : List NamedPath) (path : String) : NamedPath :=
  ⟨path, (idOf? named path).getD ""⟩

theorem nameOf_of_mem (hpaths : (named.map (·.path)).Nodup) {n : NamedPath} (hn : n ∈ named) :
    nameOf named n.path = n := by
  unfold nameOf
  rw [idOf?_of_mem hpaths hn]
  rfl

/-- The identifier of a named path is one of those given. -/
theorem id_nameOf_mem (hpaths : (named.map (·.path)).Nodup) {path : String}
    (hpath : path ∈ named.map (·.path)) : (nameOf named path).id ∈ named.map (·.id) := by
  obtain ⟨n, hn, rfl⟩ := List.mem_map.mp hpath
  rw [nameOf_of_mem hpaths hn]
  exact List.mem_map_of_mem hn

theorem map_nameOf (hpaths : (named.map (·.path)).Nodup) :
    (named.map (·.path)).map (nameOf named) = named := by
  rw [List.map_map]
  exact (List.map_congr_left fun n hn => nameOf_of_mem hpaths hn).trans (List.map_id _)

/-- The identifiers of an import. -/
def linkOf (named : List NamedPath) (edge : Edge) : String × String :=
  ((nameOf named edge.source).id, (nameOf named edge.target).id)

/-- The import of the identifiers of an import is the import. -/
theorem edgeOf?_linkOf (hpaths : (named.map (·.path)).Nodup) (hids : (named.map (·.id)).Nodup)
    {edge : Edge} (hsource : edge.source ∈ named.map (·.path))
    (htarget : edge.target ∈ named.map (·.path)) :
    edgeOf? named (linkOf named edge) = some edge := by
  obtain ⟨n, hn, hnpath⟩ := List.mem_map.mp hsource
  obtain ⟨m, hm, hmpath⟩ := List.mem_map.mp htarget
  unfold edgeOf? linkOf
  rw [← hnpath, ← hmpath, nameOf_of_mem hpaths hn, nameOf_of_mem hpaths hm]
  simp only
  rw [pathOf?_of_mem hids hn, pathOf?_of_mem hids hm, hnpath, hmpath]
  rfl

/-! ## Groups -/

/-- Sorting out a list by distinct values of a function gives what has one of the values. -/
theorem flatMap_filter_perm {α β : Type} [DecidableEq β] (f : α → β) (l : List α) {keys : List β}
    (hkeys : keys.Nodup) :
    (keys.flatMap fun key => l.filter (f · == key)).Perm (l.filter fun a => keys.contains (f a)) := by
  induction keys with
  | nil => simp
  | cons key rest ih =>
      obtain ⟨hkey, hrest⟩ := List.nodup_cons.mp hkeys
      have hsplit := List.filter_append_perm (f · == key)
        (l.filter fun a => (key :: rest).contains (f a))
      rw [List.filter_filter, List.filter_filter] at hsplit
      refine List.Perm.trans ?_ hsplit
      rw [List.flatMap_cons]
      refine List.Perm.append (List.Perm.of_eq ?_) ((ih hrest).trans (List.Perm.of_eq ?_))
      · refine List.filter_congr fun a _ => ?_
        by_cases h : f a = key
        · simp [h]
        · simp [h]
      · refine List.filter_congr fun a _ => ?_
        by_cases h : f a = key
        · simp [h, hkey]
        · simp [h]

/-- The groups hold every path once. -/
theorem flatMap_groupsOf_perm (paths : List String) :
    ((groupsOf paths).flatMap (·.2)).Perm paths := by
  unfold groupsOf
  rw [List.flatMap_map]
  refine (flatMap_filter_perm topDirectory paths
    (OrderedSet.nodup_of_increasing (OrderedSet.increasing _))).trans (List.Perm.of_eq ?_)
  rw [List.filter_eq_self]
  intro path hpath
  rw [List.contains_iff_mem, ← OrderedSet.mem_def, OrderedSet.mem_ofList]
  exact List.mem_map_of_mem hpath

end SourceAtlas.Render
