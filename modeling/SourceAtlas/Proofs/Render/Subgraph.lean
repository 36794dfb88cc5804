/-
# SourceAtlas.Proofs.Render.Subgraph — which files a flowchart puts together.

A chart that groups by directory frames its definitions, and `subgraphs` reads the frames back from
the lines: the identifier and the title of each, and the paths defined in it.  Every shown path is
defined in exactly one of them, and two are together if the directories at their top are the same
(`Partitioned`).  The files that lie in no directory have no title of their own: they go under the
word `root`, and there they meet the files of a directory that is called so
(`rootDirectory_together`).
-/
import SourceAtlas.Proofs.Render.Flowchart

namespace SourceAtlas.Render

open FlowLine

variable {report : Report} {showAll : Bool}

/-! ## Directories -/

/-- The directory at the top of a path, if it lies in one: what stands before the first `/`. -/
def topDirectory? (path : String) : Option String :=
  if '/' ∈ path.toList then some (String.ofList (path.toList.takeWhile (· != '/'))) else none

/-- **A group is named for the directory**, and for `root` where there is none. -/
theorem topDirectory_eq (path : String) : topDirectory path = (topDirectory? path).getD "root" := by
  unfold topDirectory topDirectory? Text.splitAt
  rcases Text.pieces_cases (· == '/') path.toList with
    ⟨hall, hpieces⟩ | ⟨top, c, rest, htop, hc, hpath, hpieces⟩
  · have hnone : '/' ∉ path.toList := fun hmem => absurd (hall '/' hmem) (by simp)
    rw [hpieces, if_neg hnone]
    rfl
  · obtain rfl : c = '/' := beq_iff_eq.mp hc
    have hsome : '/' ∈ path.toList := by
      rw [hpath]
      exact List.mem_append_right _ List.mem_cons_self
    have htake : path.toList.takeWhile (· != '/') = top := by
      rw [hpath]
      refine Text.takeWhile_append_of_stop (fun x hx => ?_) (by rintro x ⟨rfl⟩; rfl)
      rw [bne, htop x hx]
      rfl
    obtain ⟨next, more, hrest⟩ := List.exists_cons_of_ne_nil (Text.pieces_ne_nil (· == '/') rest)
    rw [hpieces, hrest, if_pos hsome, htake]
    rfl

/-- Whether a file goes under the word `root`: it lies in no directory, or in one called so. -/
def UnderRoot (path : String) : Prop :=
  topDirectory? path = none ∨ topDirectory? path = some "root"

/-- Groups have one name for one directory, and for all that goes under `root`. -/
theorem topDirectory_eq_iff (path path' : String) :
    topDirectory path = topDirectory path' ↔
      topDirectory? path = topDirectory? path' ∨ (UnderRoot path ∧ UnderRoot path') := by
  rw [topDirectory_eq, topDirectory_eq, UnderRoot, UnderRoot]
  cases topDirectory? path with
  | none =>
      cases topDirectory? path' with
      | none => simp
      | some top' => simp [eq_comm]
  | some top =>
      cases topDirectory? path' with
      | none => simp
      | some top' =>
          simp only [Option.getD_some, Option.some.injEq, reduceCtorEq, false_or]
          exact ⟨Or.inl, fun h => h.elim id fun hroot => hroot.1.trans hroot.2.symm⟩

/-! ## Frames, read -/

/-- A group as a chart shows it: a frame with an identifier and a title around the paths defined in
it. -/
structure Subgraph where
  id : String
  title : String
  paths : List String
  deriving DecidableEq

/-- The paths defined before a group ends. -/
def pathsInside (what : List FlowLine) : List String :=
  ((what.takeWhile (· != closing)).filterMap node?).map (·.path)

/-- The groups that begin in what lines say. -/
def subgraphsOf : List FlowLine → List Subgraph
  | [] => []
  | opening id title :: rest => ⟨id, title, pathsInside rest⟩ :: subgraphsOf rest
  | _ :: rest => subgraphsOf rest

/-- The groups of a chart. -/
def subgraphs (lines : List String) : List Subgraph :=
  subgraphsOf (readAll lines)

/-- What begins no group stands in front of the groups. -/
theorem subgraphsOf_append {what : List FlowLine} (h : ∀ line ∈ what, opening? line = none)
    (rest : List FlowLine) : subgraphsOf (what ++ rest) = subgraphsOf rest := by
  induction what with
  | nil => rfl
  | cons line what ih =>
      obtain ⟨hline, hwhat⟩ := List.forall_mem_cons.mp h
      cases line with
      | opening id title => cases hline
      | node | link | closing | style => exact ih hwhat

/-- **A frame is read as the group that it frames.** -/
theorem subgraphsOf_frameOf (named : List NamedPath) (id : String) (group : String × List String)
    (rest : List FlowLine) :
    subgraphsOf (frameOf named id group ++ rest) = ⟨id, group.1, group.2⟩ :: subgraphsOf rest := by
  have hinside : ∀ line ∈ group.2.map (fun path => node (nameOf named path)),
      (line != closing) = true ∧ opening? line = none := by
    intro line hline
    obtain ⟨path, -, rfl⟩ := List.mem_map.mp hline
    exact ⟨rfl, rfl⟩
  have hframe : frameOf named id group ++ rest = opening id group.1 ::
      ((group.2.map fun path => node (nameOf named path)) ++ closing :: rest) := by
    simp [frameOf]
  have hpaths : pathsInside ((group.2.map fun path => node (nameOf named path)) ++ closing :: rest) =
      group.2 := by
    unfold pathsInside
    rw [Text.takeWhile_append_of_stop (fun line hline => (hinside line hline).1)
      (by rintro line ⟨rfl⟩; rfl), List.filterMap_map, List.map_filterMap]
    exact List.filterMap_some
  rw [hframe, subgraphsOf, hpaths, subgraphsOf_append fun line hline => (hinside line hline).2]
  rfl

/-- Frames one under the other are read as their groups, in order. -/
theorem subgraphsOf_flatMap_frameOf (named : List NamedPath)
    (groups : List (String × String × List String)) (rest : List FlowLine) :
    subgraphsOf (groups.flatMap (fun (id, group) => frameOf named id group) ++ rest) =
      groups.map (fun (id, group) => ⟨id, group.1, group.2⟩) ++ subgraphsOf rest := by
  induction groups with
  | nil => rfl
  | cons first groups ih =>
      rw [List.flatMap_cons, List.append_assoc, subgraphsOf_frameOf, ih]
      rfl

/-! ## Sorting by directory -/

/-- A group of paths has the name of a directory of theirs and all paths of the name, in order. -/
theorem mem_groupsOf {paths : List String} {group : String × List String} :
    group ∈ groupsOf paths ↔
      group.1 ∈ paths.map topDirectory ∧ group.2 = paths.filter (topDirectory · == group.1) := by
  unfold groupsOf
  rw [List.mem_map]
  constructor
  · rintro ⟨name, hname, rfl⟩
    rw [← OrderedSet.mem_def, OrderedSet.mem_ofList] at hname
    exact ⟨hname, rfl⟩
  · rintro ⟨hname, hpaths⟩
    refine ⟨group.1, ?_, Prod.ext rfl hpaths.symm⟩
    rw [← OrderedSet.mem_def, OrderedSet.mem_ofList]
    exact hname

theorem map_fst_groupsOf (paths : List String) :
    (groupsOf paths).map (·.1) = (OrderedSet.ofList (paths.map topDirectory)).toList := by
  unfold groupsOf
  rw [List.map_map]
  exact List.map_id _

/-- **`Partitioned paths groups`** — the groups hold the paths, each in one of them, and what is
together are the files of a directory, or those that go under `root`. -/
structure Partitioned (paths : List String) (groups : List Subgraph) : Prop where
  /-- No two groups have one identifier. -/
  ids : (groups.map (·.id)).Nodup
  /-- The titles stand in increasing order, so that no two groups have one title. -/
  titles : (groups.map (·.title)).Pairwise (· < ·)
  /-- No group is empty. -/
  inhabited : ∀ group ∈ groups, group.paths ≠ []
  /-- The groups hold nothing but the paths, and each as often as it is given. -/
  whole : (groups.flatMap (·.paths)).Perm paths
  /-- Each path is in exactly one group. -/
  once : ∀ path ∈ paths, ∃! group, group ∈ groups ∧ path ∈ group.paths
  /-- Two paths are in one group if the directories at their top are the same, or if each of them
  lies in no directory or in one called `root`; and not otherwise. -/
  together : ∀ path ∈ paths, ∀ path' ∈ paths,
    (∃ group ∈ groups, path ∈ group.paths ∧ path' ∈ group.paths) ↔
      topDirectory? path = topDirectory? path' ∨ (UnderRoot path ∧ UnderRoot path')

/-- Without a directory called `root`, the groups are the directories, and the files in none. -/
theorem Partitioned.together_of_no_rootDirectory {paths : List String} {groups : List Subgraph}
    (h : Partitioned paths groups) (hroot : ∀ path ∈ paths, topDirectory? path ≠ some "root")
    {path path' : String} (hpath : path ∈ paths) (hpath' : path' ∈ paths) :
    (∃ group ∈ groups, path ∈ group.paths ∧ path' ∈ group.paths) ↔
      topDirectory? path = topDirectory? path' := by
  rw [h.together path hpath path' hpath']
  refine ⟨fun heq => heq.elim id fun ⟨hunder, hunder'⟩ => ?_, Or.inl⟩
  rw [hunder.resolve_right (hroot path hpath), hunder'.resolve_right (hroot path' hpath')]

/-- **Groups that are read back as those of the paths partition the paths.** -/
theorem partitioned_of_groupsOf {paths : List String} {groups : List Subgraph}
    (hids : (groups.map (·.id)).Nodup)
    (hgroups : groups.map (fun group => (group.title, group.paths)) = groupsOf paths) :
    Partitioned paths groups := by
  have htitles : groups.map (·.title) = (OrderedSet.ofList (paths.map topDirectory)).toList := by
    rw [← map_fst_groupsOf, ← hgroups, List.map_map]
    rfl
  have hincreasing : (groups.map (·.title)).Pairwise (· < ·) := by
    rw [htitles]
    exact OrderedSet.increasing _
  have hmem : ∀ group ∈ groups, group.title ∈ paths.map topDirectory ∧
      group.paths = paths.filter (topDirectory · == group.title) := fun group hgroup =>
    mem_groupsOf.mp (hgroups ▸ List.mem_map_of_mem hgroup)
  have hpaths : ∀ group ∈ groups, ∀ path,
      path ∈ group.paths ↔ path ∈ paths ∧ topDirectory path = group.title := by
    intro group hgroup path
    rw [(hmem group hgroup).2, List.mem_filter, beq_iff_eq]
  have hexists : ∀ path ∈ paths, ∃ group ∈ groups, group.title = topDirectory path := by
    intro path hpath
    refine List.mem_map.mp ?_
    rw [htitles, ← OrderedSet.mem_def, OrderedSet.mem_ofList]
    exact List.mem_map_of_mem hpath
  refine ⟨hids, hincreasing, ?inhabited, ?whole, ?once, ?together⟩
  case inhabited =>
    intro group hgroup
    obtain ⟨path, hpath, htop⟩ := List.mem_map.mp (hmem group hgroup).1
    exact List.ne_nil_of_mem ((hpaths group hgroup path).mpr ⟨hpath, htop⟩)
  case whole =>
    refine List.Perm.trans (List.Perm.of_eq ?_) (flatMap_groupsOf_perm paths)
    rw [← hgroups, List.flatMap_map]
  case once =>
    intro path hpath
    obtain ⟨group, hgroup, htitle⟩ := hexists path hpath
    refine ⟨group, ⟨hgroup, (hpaths group hgroup path).mpr ⟨hpath, htitle.symm⟩⟩, ?_⟩
    rintro group' ⟨hgroup', hpath'⟩
    -- a path goes under one title, and the titles are distinct
    refine List.inj_on_of_nodup_map (OrderedSet.nodup_of_increasing hincreasing) hgroup' hgroup ?_
    rw [htitle, ((hpaths group' hgroup' path).mp hpath').2]
  case together =>
    intro path hpath path' hpath'
    rw [← topDirectory_eq_iff]
    constructor
    · rintro ⟨group, hgroup, hin, hin'⟩
      rw [((hpaths group hgroup path).mp hin).2, ((hpaths group hgroup path').mp hin').2]
    · intro heq
      obtain ⟨group, hgroup, htitle⟩ := hexists path hpath
      exact ⟨group, hgroup, (hpaths group hgroup path).mpr ⟨hpath, htitle.symm⟩,
        (hpaths group hgroup path').mpr ⟨hpath', by rw [htitle, heq]⟩⟩

/-! ## Charts -/

section Shown

variable (distinct : (report.graphNodes.map (·.id)).Nodup)
include distinct

/-- The groups of a chart are those that its paths are sorted into. -/
theorem subgraphs_mermaidLines (options : MermaidOptions) :
    subgraphs (mermaidLines report { options with groupByDirectory := true }) =
      ((groupIds report options.showAll).zip (groupsOf (shownPaths report options.showAll))).map
        fun (id, group) => ⟨id, group.1, group.2⟩ := by
  have hbehind : subgraphsOf
      (readAll (linesBehind report options.showAll options.highlightCritical)) = [] := by
    rw [← List.append_nil (readAll _)]
    exact subgraphsOf_append (fun what hwhat => by
      obtain ⟨source, target, rfl⟩ | ⟨id, look, rfl⟩ := link_or_style_of_mem hwhat <;> rfl) []
  rw [mermaidLines_eq]
  unfold subgraphs
  rw [readAll, List.filterMap_cons_none (read?_header _)]
  show subgraphsOf (readAll (definitionsOf report options.showAll true ++
    linesBehind report options.showAll options.highlightCritical)) = _
  rw [readAll_append, readAll_definitionsOf_grouped distinct, subgraphsOf_flatMap_frameOf, hbehind,
    List.append_nil]

/-- The groups of a chart partition the shown paths. -/
theorem partitioned_subgraphs (options : MermaidOptions) :
    Partitioned (shownPaths report options.showAll)
      (subgraphs (mermaidLines report { options with groupByDirectory := true })) := by
  have hlength := length_groupIds report options.showAll
  rw [subgraphs_mermaidLines distinct]
  refine partitioned_of_groupsOf ?_ ?_
  · rw [List.map_map]
    show (List.map Prod.fst _).Nodup
    rw [List.map_fst_zip hlength.le]
    exact (List.nodup_append.mp (nodup_ids report options.showAll)).2.1
  · rw [List.map_map]
    exact List.map_snd_zip hlength.ge

end Shown

/-- **Grouping puts every shown file in one group, by the directory at the top of its path.**  No
file is defined outside of the groups.  The files that lie in no directory share a group with those
of a directory called `root`, if there is one, and with no others. -/
theorem mermaidLines_partitioned (report : Report)
    (distinct : (report.graphNodes.map (·.id)).Nodup) (options : MermaidOptions) :
    Partitioned (shownPaths report options.showAll)
        (subgraphs (mermaidLines report { options with groupByDirectory := true })) ∧
      ((said node? (mermaidLines report { options with groupByDirectory := true })).map
        (·.path)).Perm (shownPaths report options.showAll) := by
  refine ⟨partitioned_subgraphs distinct options, ?_⟩
  rw [← map_path_namesOf]
  exact (said_node_mermaidLines distinct { options with groupByDirectory := true }).map _

/-- A report of files in the root, in a directory called `root`, and in others. -/
def rootDirectoryReport : Report :=
  { collidingReport with
    mainFile := none
    graphNodes := [⟨"a.py", "a.py", 0⟩, ⟨"lib/c.py", "c.py", 0⟩, ⟨"root/b.py", "b.py", 0⟩]
    graphEdges := [⟨"a.py", "root/b.py"⟩, ⟨"root/b.py", "lib/c.py"⟩] }

theorem mermaidLines_partitioned_rootDirectory :
    subgraphs (mermaidLines rootDirectoryReport ⟨"LR", true, false, true⟩) =
        [⟨"dir_lib", "lib", ["lib/c.py"]⟩, ⟨"dir_root", "root", ["a.py", "root/b.py"]⟩] ∧
      Partitioned ["a.py", "lib/c.py", "root/b.py"]
        (subgraphs (mermaidLines rootDirectoryReport ⟨"LR", true, false, true⟩)) := by
  have hshown : shownPaths rootDirectoryReport false = ["a.py", "lib/c.py", "root/b.py"] := by
    decide +kernel
  have h := (mermaidLines_partitioned rootDirectoryReport (by decide +kernel)
    ⟨"LR", true, false, true⟩).1
  exact ⟨by decide +kernel, hshown ▸ h⟩

/-- **A file of the root and one of the directory `root` are put together**, though one lies in no
directory and the other in one. -/
theorem rootDirectory_together :
    ("a.py" ∈ shownPaths rootDirectoryReport false ∧
        "root/b.py" ∈ shownPaths rootDirectoryReport false) ∧
      topDirectory? "a.py" ≠ topDirectory? "root/b.py" ∧
      ∃ group ∈ subgraphs (mermaidLines rootDirectoryReport ⟨"LR", true, false, true⟩),
        "a.py" ∈ group.paths ∧ "root/b.py" ∈ group.paths := by
  decide +kernel

end SourceAtlas.Render
