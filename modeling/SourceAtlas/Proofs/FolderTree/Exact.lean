/-
# SourceAtlas.Proofs.FolderTree.Exact — a folder tree holds the files of its paths, in order.

Building a tree from paths and listing the paths of a tree undo each other up to the order
(`ofPaths_exact`).  The tree lists the paths that have a segment, each as often as it was given and
without its empty segments; at every level files are sorted, folders have increasing names and none
is without a file; and building again from what the tree lists gives the tree.

Order is kept by every insertion (`Everywhere.inOrder_insert`).  That building again gives the same
tree needs no more than that the order of paths does not show and that empty segments are dropped.
-/
import SourceAtlas.OrderedSet
import SourceAtlas.Proofs.FolderTree.Routes
import SourceAtlas.Proofs.Text.Piece

namespace SourceAtlas.FolderTree

variable {name : String} {names : List String} {folders : List FolderTree} {tree sub : FolderTree}
  {change : FolderTree → FolderTree} {route : List String} {path : String}

/-! ## Order at every level -/

/-- **`InOrder folder`** — the files of the folder are sorted, the names of its folders increase,
and each of its folders leads to a file. -/
structure InOrder (folder : FolderTree) : Prop where
  files : folder.files.Pairwise (· ≤ ·)
  folders : (folder.folders.map FolderTree.name).Pairwise (· < ·)
  inhabited : ∀ sub ∈ folder.folders, sub.routes ≠ []

theorem inOrder_empty (name : String) : Everywhere InOrder (node name [] []) :=
  everywhere_node.mpr ⟨⟨List.Pairwise.nil, List.Pairwise.nil, List.forall_mem_nil _⟩,
    List.forall_mem_nil _⟩

theorem sorted_insertName (h : names.Pairwise (· ≤ ·)) (name : String) :
    (insertName name names).Pairwise (· ≤ ·) := by
  induction names with
  | nil => exact List.pairwise_singleton _ name
  | cons first rest ih =>
      obtain ⟨hfirst, hrest⟩ := List.pairwise_cons.mp h
      rcases le_or_gt name first with hname | hname
      · rw [insertName_cons_of_le hname]
        refine List.pairwise_cons.mpr ⟨List.forall_mem_cons.mpr ⟨hname, fun other hother => ?_⟩, h⟩
        exact hname.trans (hfirst other hother)
      · rw [insertName_cons_of_lt hname]
        refine List.pairwise_cons.mpr ⟨fun other hother => ?_, ih hrest⟩
        rcases List.mem_cons.mp ((insertName_perm name rest).mem_iff.mp hother) with rfl | hother
        · exact hname.le
        · exact hfirst other hother

/-- Changing a folder puts its name among the names, if it is not there. -/
theorem map_name_changeFolder (hkeeps : ∀ tree, (change tree).name = tree.name)
    (folders : List FolderTree) :
    (changeFolder name change folders).map FolderTree.name =
      OrderedSet.insertSorted name (folders.map FolderTree.name) := by
  have hmade : (change (node name [] [])).name = name := hkeeps _
  induction folders with
  | nil => exact congrArg (· :: []) hmade
  | cons folder rest ih =>
      rw [List.map_cons, OrderedSet.insertSorted]
      rcases lt_trichotomy name folder.name with h | h | h
      · rw [changeFolder_cons_of_lt h, if_pos h, List.map_cons, hmade, List.map_cons]
      · rw [changeFolder_cons_of_eq h.symm, h, if_neg (lt_irrefl _), if_neg (lt_irrefl _),
          List.map_cons, hkeeps]
      · rw [changeFolder_cons_of_gt h, if_neg h.asymm, if_pos h, List.map_cons, ih]

/-- A folder of a changed list was there before or is what the change makes of one. -/
theorem mem_changeFolder (h : sub ∈ changeFolder name change folders) :
    sub ∈ folders ∨ ∃ old, (old ∈ folders ∨ old = node name [] []) ∧ sub = change old := by
  have hmade : ∀ rest : List FolderTree, sub ∈ change (node name [] []) :: rest → sub ∈ rest ∨
      ∃ old, (old ∈ rest ∨ old = node name [] []) ∧ sub = change old := by
    intro rest hsub
    rcases List.mem_cons.mp hsub with rfl | hsub
    · exact Or.inr ⟨_, Or.inr rfl, rfl⟩
    · exact Or.inl hsub
  induction folders with
  | nil => exact hmade [] h
  | cons folder rest ih =>
      rcases lt_trichotomy name folder.name with hname | hname | hname
      · rw [changeFolder_cons_of_lt hname] at h
        exact hmade _ h
      · rw [changeFolder_cons_of_eq hname.symm] at h
        rcases List.mem_cons.mp h with rfl | h
        · exact Or.inr ⟨folder, Or.inl List.mem_cons_self, rfl⟩
        · exact Or.inl (List.mem_cons_of_mem folder h)
      · rw [changeFolder_cons_of_gt hname] at h
        rcases List.mem_cons.mp h with rfl | h
        · exact Or.inl List.mem_cons_self
        · rcases ih h with h | ⟨old, hold, rfl⟩
          · exact Or.inl (List.mem_cons_of_mem folder h)
          · exact Or.inr ⟨old, hold.imp_left (List.mem_cons_of_mem folder), rfl⟩

/-- **Adding a file keeps a tree in order.** -/
theorem Everywhere.inOrder_insert (hroute : route ≠ []) (h : Everywhere InOrder tree) :
    Everywhere InOrder (insert route tree) := by
  induction route generalizing tree with
  | nil => exact absurd rfl hroute
  | cons first rest ih =>
      obtain ⟨name, files, folders⟩ := tree
      obtain ⟨htree, hsubs⟩ := everywhere_node.mp h
      match rest with
      | [] =>
          exact everywhere_node.mpr
            ⟨⟨sorted_insertName htree.files first, htree.folders, htree.inhabited⟩, hsubs⟩
      | next :: below =>
          have hbelow := List.cons_ne_nil next below
          refine everywhere_node.mpr ⟨⟨htree.files, ?_, fun sub hsub => ?_⟩, fun sub hsub => ?_⟩
          · show ((changeFolder first (insert (next :: below)) folders).map FolderTree.name).Pairwise _
            rw [map_name_changeFolder (name_insert _)]
            exact OrderedSet.pairwise_insertSorted htree.folders
          · rcases mem_changeFolder hsub with hsub | ⟨old, -, rfl⟩
            · exact htree.inhabited sub hsub
            · exact List.ne_nil_of_mem ((routes_insert hbelow old).mem_iff.mpr List.mem_cons_self)
          · rcases mem_changeFolder hsub with hsub | ⟨old, hold | rfl, rfl⟩
            · exact hsubs sub hsub
            · exact ih hbelow (hsubs old hold)
            · exact ih hbelow (inOrder_empty first)

theorem inOrder_ofPaths (paths : List String) (name : String) :
    Everywhere InOrder (ofPaths paths name) := by
  refine List.foldlRecOn _ _ (inOrder_empty name) fun tree htree path _ => ?_
  by_cases h : segmentsOf path = []
  · rw [h]
    exact htree
  · exact htree.inOrder_insert h

theorem name_ofPaths (paths : List String) (name : String) : (ofPaths paths name).name = name :=
  List.foldlRecOn (motive := fun tree : FolderTree => tree.name = name) _ _ rfl
    fun _ htree _ _ => (name_insert _ _).trans htree

/-! ## Paths without empty segments -/

/-- The path without its empty segments. -/
def compact (path : String) : String :=
  "/".intercalate (segmentsOf path)

theorem segmentsOf_compact (h : segmentsOf path ≠ []) :
    segmentsOf (compact path) = segmentsOf path := by
  have hslash : ∀ segment ∈ segmentsOf path, '/' ∉ segment.toList := fun segment hsegment =>
    Text.not_mem_of_mem_splitAt (List.mem_of_mem_filter hsegment)
  unfold compact
  rw [segmentsOf, Text.splitAt_intercalate rfl h hslash, segmentsOf, List.filter_filter]
  simp

/-- Paths without a segment and empty segments leave no trace in a tree. -/
theorem ofPaths_compact (paths : List String) (name : String) :
    ofPaths ((paths.filter (segmentsOf · ≠ [])).map compact) name = ofPaths paths name := by
  unfold ofPaths
  generalize node name [] [] = tree
  induction paths generalizing tree with
  | nil => rfl
  | cons path rest ih =>
      by_cases h : segmentsOf path = []
      · rw [List.filter_cons_of_neg (by simpa using h), ih, List.foldl_cons, h, insert_nil]
      · rw [List.filter_cons_of_pos (by simpa using h), List.map_cons, List.foldl_cons, ih,
          segmentsOf_compact h, List.foldl_cons]

/-! ## Exact trees -/

/-- **`Exact paths name tree`** — the tree holds the files of the paths and nothing else, and all of
it is in order. -/
structure Exact (paths : List String) (name : String) (tree : FolderTree) : Prop where
  named : tree.name = name
  /-- Behind any lead, the tree lists the paths that have a segment, each as often as it is given and
  without its empty segments. -/
  listed : ∀ lead, (tree.paths lead).Perm
    ((paths.filter (segmentsOf · ≠ [])).map fun path => lead ++ compact path)
  counted : tree.count = (paths.filter (segmentsOf · ≠ [])).length
  sorted : Everywhere (fun folder => folder.files.Pairwise (· ≤ ·)) tree
  increasing : Everywhere (fun folder => (folder.folders.map FolderTree.name).Pairwise (· < ·)) tree
  /-- Every folder below the root holds a file somewhere. -/
  inhabited : Everywhere (fun folder => ∀ sub ∈ folder.folders,
    ∃ holder, Within sub holder ∧ holder.files ≠ []) tree
  /-- The paths give the tree in every order. -/
  order : ∀ paths', paths.Perm paths' → ofPaths paths' name = tree
  /-- The paths that the tree lists give the tree. -/
  again : ofPaths (tree.paths "") name = tree

/-- **A tree built from paths is exact**, whatever the paths. -/
theorem ofPaths_exact (paths : List String) (name : String) :
    Exact paths name (ofPaths paths name) := by
  have hroutes := routes_ofPaths paths name
  rw [List.filter_map] at hroutes
  have hlisted : ∀ lead, ((ofPaths paths name).paths lead).Perm
      ((paths.filter (segmentsOf · ≠ [])).map fun path => lead ++ compact path) := by
    intro lead
    rw [paths_eq]
    refine (hroutes.map _).trans (List.Perm.of_eq ?_)
    rw [List.map_map]
    rfl
  have hinOrder := inOrder_ofPaths paths name
  refine
    { named := name_ofPaths paths name
      listed := hlisted
      counted := ?_
      sorted := fun folder hfolder => (hinOrder folder hfolder).files
      increasing := fun folder hfolder => (hinOrder folder hfolder).folders
      inhabited := fun folder hfolder sub hsub => ?_
      order := fun paths' hperm => (ofPaths_perm hperm name).symm
      again := ?_ }
  · rw [count_eq, hroutes.length_eq, List.length_map]
    rfl
  · obtain ⟨route, hroute⟩ := List.exists_mem_of_ne_nil _ ((hinOrder folder hfolder).inhabited sub hsub)
    exact exists_file_of_mem_routes hroute
  · have hcompact := hlisted ""
    simp only [String.empty_append] at hcompact
    rw [ofPaths_perm hcompact, ofPaths_compact]

/-- A name can be both a file's and a folder's, and empty segments do not count. -/
example : (ofPaths ["b//a", "a", "", "a/", "/b/c"] "/").paths "r/" =
    ["r/a", "r/a", "r/b/a", "r/b/c"] := by
  decide +kernel

end SourceAtlas.FolderTree
