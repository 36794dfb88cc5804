/-
# SourceAtlas.Proofs.FolderTree.Routes — the files of a folder tree, by the segments that lead there.

A file stands in a tree at the end of a route: the names of the folders on the way and its own
(`routes`).  The paths of a tree are its routes joined by slashes (`paths_eq`), and adding a file
adds one route and loses none (`routes_insert`).  So a tree built from paths has the routes that
their segments are, as often as they are there (`routes_ofPaths`).
-/
import Mathlib.Data.List.Perm.Basic
import SourceAtlas.Proofs.FolderTree.Commute
import SourceAtlas.Proofs.FolderTree.Everywhere

namespace SourceAtlas.FolderTree

mutual

/-- The routes to the files in the tree. -/
def routes : FolderTree → List (List String)
  | node _ files folders => files.map ([·]) ++ routesOfAll folders

/-- The routes to the files in several folders. -/
def routesOfAll : List FolderTree → List (List String)
  | [] => []
  | folder :: rest => (routes folder).map (folder.name :: ·) ++ routesOfAll rest

end

variable {name : String} {files names : List String} {folders : List FolderTree}
  {tree : FolderTree} {route : List String}

/-! ## What is read off the routes -/

theorem mem_routesOfAll :
    route ∈ routesOfAll folders ↔ ∃ folder ∈ folders, ∃ rest ∈ folder.routes,
      route = folder.name :: rest := by
  induction folders with
  | nil => simp [routesOfAll]
  | cons folder rest ih => simp [routesOfAll, ih, eq_comm]

theorem ne_nil_of_mem_routes (h : route ∈ tree.routes) : route ≠ [] := by
  obtain ⟨name, files, folders⟩ := tree
  rcases List.mem_append.mp h with h | h
  · obtain ⟨file, -, rfl⟩ := List.mem_map.mp h
    exact List.cons_ne_nil file []
  · obtain ⟨folder, -, rest, -, rfl⟩ := mem_routesOfAll.mp h
    exact List.cons_ne_nil folder.name rest

/-- The paths of a tree are its routes, joined by slashes. -/
theorem paths_eq (tree : FolderTree) (lead : String) :
    tree.paths lead = tree.routes.map fun route => lead ++ "/".intercalate route := by
  induction tree using FolderTree.induction generalizing lead with
  | node name files folders ih =>
      have hfiles : files.map (lead ++ ·) =
          (files.map ([·])).map fun route => lead ++ "/".intercalate route := by
        rw [List.map_map]
        exact List.map_congr_left fun file _ => by simp
      have hfolders : pathsOfAll lead folders =
          (routesOfAll folders).map fun route => lead ++ "/".intercalate route := by
        induction folders with
        | nil => rfl
        | cons folder rest ihrest =>
            obtain ⟨hfolder, hrest⟩ := List.forall_mem_cons.mp ih
            rw [pathsOfAll, routesOfAll, List.map_append, ← ihrest hrest, hfolder, List.map_map]
            congr 1
            refine List.map_congr_left fun route hroute => ?_
            show _ = lead ++ "/".intercalate (folder.name :: route)
            rw [String.intercalate_cons_of_ne_nil (ne_nil_of_mem_routes hroute)]
            simp only [String.append_assoc]
      rw [paths, routes, List.map_append, hfiles, hfolders]

/-- A tree has as many files as routes. -/
theorem count_eq (tree : FolderTree) : tree.count = tree.routes.length := by
  induction tree using FolderTree.induction with
  | node name files folders ih =>
      have hfolders : countOfAll folders = (routesOfAll folders).length := by
        induction folders with
        | nil => rfl
        | cons folder rest ihrest =>
            obtain ⟨hfolder, hrest⟩ := List.forall_mem_cons.mp ih
            rw [countOfAll, routesOfAll, List.length_append, List.length_map, ihrest hrest, hfolder]
      rw [count, routes, List.length_append, List.length_map, hfolders]

/-- Where a route leads, a folder holds a file. -/
theorem exists_file_of_mem_routes (h : route ∈ tree.routes) :
    ∃ folder, Within tree folder ∧ folder.files ≠ [] := by
  induction tree using FolderTree.induction generalizing route with
  | node name files folders ih =>
      rcases List.mem_append.mp h with h | h
      · exact ⟨_, .self _, List.ne_nil_of_mem (List.exists_of_mem_map h).choose_spec.1⟩
      · obtain ⟨sub, hsub, rest, hrest, -⟩ := mem_routesOfAll.mp h
        obtain ⟨folder, hwithin, hfiles⟩ := ih sub hsub hrest
        exact ⟨folder, .inside hsub hwithin, hfiles⟩

/-! ## Adding a file -/

theorem insertName_perm (name : String) (names : List String) :
    (insertName name names).Perm (name :: names) := by
  induction names with
  | nil => exact List.Perm.refl _
  | cons first rest ih =>
      rcases le_or_gt name first with h | h
      · rw [insertName_cons_of_le h]
      · rw [insertName_cons_of_lt h]
        exact (ih.cons first).trans (List.Perm.swap name first rest)

/-- A change that adds a route to a folder adds the route through the folder. -/
theorem routes_changeFolder {change : FolderTree → FolderTree}
    (hkeeps : ∀ tree, (change tree).name = tree.name)
    (hadds : ∀ tree, (change tree).routes.Perm (route :: tree.routes)) (name : String)
    (folders : List FolderTree) :
    (routesOfAll (changeFolder name change folders)).Perm
      ((name :: route) :: routesOfAll folders) := by
  -- the routes through a folder that is changed, in front of others
  have hchanged : ∀ folder rest, folder.name = name →
      (routesOfAll (change folder :: rest)).Perm
        ((name :: route) :: routesOfAll (folder :: rest)) := by
    intro folder rest hname
    rw [routesOfAll, routesOfAll, hkeeps, hname]
    exact ((hadds folder).map (name :: ·)).append_right _
  have hmade : ∀ rest, (routesOfAll (change (node name [] []) :: rest)).Perm
      ((name :: route) :: routesOfAll rest) :=
    fun rest => hchanged (node name [] []) rest rfl
  induction folders with
  | nil => exact hmade []
  | cons folder rest ih =>
      rcases lt_trichotomy name folder.name with h | h | h
      · rw [changeFolder_cons_of_lt h]
        exact hmade (folder :: rest)
      · rw [changeFolder_cons_of_eq h.symm]
        exact hchanged folder rest h.symm
      · rw [changeFolder_cons_of_gt h, routesOfAll, routesOfAll]
        exact (ih.append_left _).trans List.perm_middle

/-- **Adding a file adds its route.** -/
theorem routes_insert (hroute : route ≠ []) (tree : FolderTree) :
    (insert route tree).routes.Perm (route :: tree.routes) := by
  induction route generalizing tree with
  | nil => exact absurd rfl hroute
  | cons first rest ih =>
      obtain ⟨name, files, folders⟩ := tree
      match rest with
      | [] =>
          show ((insertName first files).map ([·]) ++ routesOfAll folders).Perm _
          exact ((insertName_perm first files).map ([·])).append_right _
      | next :: below =>
          show (files.map ([·]) ++ routesOfAll (changeFolder first (insert (next :: below)) folders)).Perm _
          have hadds := routes_changeFolder (name_insert _) (ih (List.cons_ne_nil next below)) first
            folders
          exact (hadds.append_left _).trans List.perm_middle

/-- Adding nothing changes nothing. -/
@[simp] theorem insert_nil (tree : FolderTree) : insert [] tree = tree := rfl

/-- The routes of a tree to which paths are added. -/
theorem routes_foldl_insert (paths : List String) (tree : FolderTree) :
    (paths.foldl (fun tree path => insert (segmentsOf path) tree) tree).routes.Perm
      ((paths.map segmentsOf).filter (· ≠ []) ++ tree.routes) := by
  induction paths generalizing tree with
  | nil => exact List.Perm.refl _
  | cons path rest ih =>
      refine (ih (insert (segmentsOf path) tree)).trans ?_
      by_cases h : segmentsOf path = []
      · simp [h]
      · rw [List.map_cons, List.filter_cons_of_pos (by simpa using h)]
        exact ((routes_insert h tree).append_left _).trans List.perm_middle

/-- **A tree built from paths has the routes that their segments are.** -/
theorem routes_ofPaths (paths : List String) (name : String) :
    (ofPaths paths name).routes.Perm ((paths.map segmentsOf).filter (· ≠ [])) := by
  have h := routes_foldl_insert paths (node name [] [])
  rwa [show (node name [] []).routes = [] from rfl, List.append_nil] at h

end SourceAtlas.FolderTree
