/-
# SourceAtlas.Proofs.FolderTree.Commute — a folder tree does not show the order of its paths.

Putting two names into a list of files, changing two folders of a list and adding two files to a
tree give the same in either order (`insertName_comm`, `changeFolder_comm`, `insert_comm`).  No list
need be in order for this: what is put in goes before the first element that is not smaller, and
that place is the same before and after the other one is put in.  So a tree is the same for every
order of its paths (`ofPaths_perm`).
-/
import Mathlib.Data.List.Perm.Basic
import Mathlib.Data.String.Basic
import SourceAtlas.FolderTree

namespace SourceAtlas.FolderTree

variable {name name' : String} {change change' : FolderTree → FolderTree}

/-! ## Names -/

theorem insertName_cons_of_le {first : String} (h : name ≤ first) (rest : List String) :
    insertName name (first :: rest) = name :: first :: rest := by
  rw [insertName, if_pos h]

theorem insertName_cons_of_lt {first : String} (h : first < name) (rest : List String) :
    insertName name (first :: rest) = first :: insertName name rest := by
  rw [insertName, if_neg (not_le.mpr h)]

/-- The smaller of two names comes first, whichever is put in first. -/
theorem insertName_of_lt (h : name < name') (names : List String) :
    insertName name (insertName name' names) = insertName name' (insertName name names) := by
  induction names with
  | nil =>
      show insertName name [name'] = insertName name' [name]
      rw [insertName_cons_of_le h.le, insertName_cons_of_lt h]
      rfl
  | cons first rest ih =>
      rcases le_or_gt name' first with hfirst | hfirst
      · rw [insertName_cons_of_le hfirst, insertName_cons_of_le h.le,
          insertName_cons_of_le (h.le.trans hfirst), insertName_cons_of_lt h,
          insertName_cons_of_le hfirst]
      · rw [insertName_cons_of_lt hfirst]
        rcases le_or_gt name first with hfirst' | hfirst'
        · rw [insertName_cons_of_le hfirst', insertName_cons_of_le hfirst',
            insertName_cons_of_lt h, insertName_cons_of_lt hfirst]
        · rw [insertName_cons_of_lt hfirst', insertName_cons_of_lt hfirst',
            insertName_cons_of_lt hfirst, ih]

theorem insertName_comm (name name' : String) (names : List String) :
    insertName name (insertName name' names) = insertName name' (insertName name names) := by
  rcases lt_trichotomy name name' with h | rfl | h
  · exact insertName_of_lt h names
  · rfl
  · exact (insertName_of_lt h names).symm

/-! ## Folders -/

theorem changeFolder_cons_of_eq {folder : FolderTree} (h : folder.name = name)
    (rest : List FolderTree) :
    changeFolder name change (folder :: rest) = change folder :: rest := by
  rw [changeFolder, if_pos h.symm]

theorem changeFolder_cons_of_lt {folder : FolderTree} (h : name < folder.name)
    (rest : List FolderTree) :
    changeFolder name change (folder :: rest) = change (node name [] []) :: folder :: rest := by
  rw [changeFolder, if_neg h.ne, if_pos h]

theorem changeFolder_cons_of_gt {folder : FolderTree} (h : folder.name < name)
    (rest : List FolderTree) :
    changeFolder name change (folder :: rest) = folder :: changeFolder name change rest := by
  rw [changeFolder, if_neg h.ne', if_neg h.asymm]

/-- Two changes of one folder are one change. -/
theorem changeFolder_self (hkeeps : ∀ tree, (change' tree).name = tree.name)
    (folders : List FolderTree) :
    changeFolder name change (changeFolder name change' folders) =
      changeFolder name (change ∘ change') folders := by
  have hmade : (change' (node name [] [])).name = name := hkeeps _
  induction folders with
  | nil => exact changeFolder_cons_of_eq hmade []
  | cons folder rest ih =>
      rcases lt_trichotomy name folder.name with h | h | h
      · rw [changeFolder_cons_of_lt h, changeFolder_cons_of_lt h, changeFolder_cons_of_eq hmade]
        rfl
      · rw [changeFolder_cons_of_eq h.symm, changeFolder_cons_of_eq h.symm,
          changeFolder_cons_of_eq ((hkeeps folder).trans h.symm)]
        rfl
      · rw [changeFolder_cons_of_gt h, changeFolder_cons_of_gt h, changeFolder_cons_of_gt h, ih]

/-- Changes of two folders do not meet. -/
theorem changeFolder_of_lt (hlt : name < name') (hkeeps : ∀ tree, (change tree).name = tree.name)
    (hkeeps' : ∀ tree, (change' tree).name = tree.name) (folders : List FolderTree) :
    changeFolder name change (changeFolder name' change' folders) =
      changeFolder name' change' (changeFolder name change folders) := by
  -- the folder that one of them makes or changes keeps its name, and so its place
  have hmade : (change (node name [] [])).name < name' := by
    rw [hkeeps]
    exact hlt
  have hmade' : name < (change' (node name' [] [])).name := by
    rw [hkeeps']
    exact hlt
  induction folders with
  | nil =>
      show changeFolder name change [change' (node name' [] [])] =
        changeFolder name' change' [change (node name [] [])]
      rw [changeFolder_cons_of_lt hmade', changeFolder_cons_of_gt hmade]
      rfl
  | cons folder rest ih =>
      rcases lt_trichotomy name' folder.name with h' | h' | h'
      · rw [changeFolder_cons_of_lt h', changeFolder_cons_of_lt hmade',
          changeFolder_cons_of_lt (hlt.trans h'), changeFolder_cons_of_gt hmade,
          changeFolder_cons_of_lt h']
      · rw [changeFolder_cons_of_eq h'.symm, changeFolder_cons_of_lt (hlt.trans_eq h'),
          changeFolder_cons_of_gt hmade, changeFolder_cons_of_eq h'.symm,
          changeFolder_cons_of_lt ((hlt.trans_eq h').trans_eq (hkeeps' folder).symm)]
      · rw [changeFolder_cons_of_gt h']
        rcases lt_trichotomy name folder.name with h | h | h
        · rw [changeFolder_cons_of_lt h, changeFolder_cons_of_lt h, changeFolder_cons_of_gt hmade,
            changeFolder_cons_of_gt h']
        · rw [changeFolder_cons_of_eq h.symm, changeFolder_cons_of_eq h.symm,
            changeFolder_cons_of_gt ((hkeeps folder).trans_lt h')]
        · rw [changeFolder_cons_of_gt h, changeFolder_cons_of_gt h, changeFolder_cons_of_gt h', ih]

theorem changeFolder_comm (hne : name ≠ name') (hkeeps : ∀ tree, (change tree).name = tree.name)
    (hkeeps' : ∀ tree, (change' tree).name = tree.name) (folders : List FolderTree) :
    changeFolder name change (changeFolder name' change' folders) =
      changeFolder name' change' (changeFolder name change folders) := by
  rcases hne.lt_or_gt with h | h
  · exact changeFolder_of_lt h hkeeps hkeeps' folders
  · exact (changeFolder_of_lt h hkeeps' hkeeps folders).symm

/-! ## Trees -/

/-- Adding a file leaves the name of the tree. -/
theorem name_insert (path : List String) (tree : FolderTree) :
    (insert path tree).name = tree.name := by
  cases tree
  match path with
  | [] => rfl
  | [_] => rfl
  | _ :: _ :: _ => rfl

/-- **Two files can be added in either order.** -/
theorem insert_comm (path path' : List String) (tree : FolderTree) :
    insert path (insert path' tree) = insert path' (insert path tree) := by
  induction path generalizing path' tree with
  | nil => rfl
  | cons first rest ih =>
      obtain ⟨name, files, folders⟩ := tree
      match rest, path' with
      | _, [] => rfl
      | [], [other] =>
          show node name _ folders = node name _ folders
          rw [insertName_comm]
      | [], _ :: _ :: _ => rfl
      | _ :: _, [_] => rfl
      | next :: below, first' :: next' :: below' =>
          show node name files _ = node name files _
          congr 1
          by_cases hfirst : first = first'
          · -- both go on in one folder, where they can change places
            rw [hfirst, changeFolder_self (name_insert _), changeFolder_self (name_insert _)]
            congr 1
            funext folder
            exact ih (next' :: below') folder
          · exact changeFolder_comm hfirst (name_insert _) (name_insert _) folders

/-- **A tree is the same for every order of its paths.** -/
theorem ofPaths_perm {paths paths' : List String} (h : paths.Perm paths') (name : String) :
    ofPaths paths name = ofPaths paths' name := by
  refine h.foldl_eq' ?_ _
  intro path _ path' _ tree
  exact insert_comm (segmentsOf path') (segmentsOf path) tree

end SourceAtlas.FolderTree
