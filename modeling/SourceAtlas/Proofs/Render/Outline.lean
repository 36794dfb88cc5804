/-
# SourceAtlas.Proofs.Render.Outline — a drawn folder tree tells its folders and files.

Below the line of a folder stand the lines that lie deeper, up to the next that does not.  So the
lines of a tree can be taken apart again into its folders and files, level by level
(`outlineOf_folderLines`), once each line is read.  Only the slash behind a folder's name tells it
from a file, so file names must not hold one; beyond that names may be anything, empty or made up of
marks.

The name of the tree itself is not among its lines, and everything else is: trees with the same
lines have the same folders and files, and with their names above the lines they are the same
(`folderLines_unambiguous`).
-/
import Mathlib.Data.List.Basic
import SourceAtlas.Proofs.FolderTree.Everywhere
import SourceAtlas.Proofs.Render.FolderLine
import SourceAtlas.Proofs.Text.Piece

namespace SourceAtlas.Render

variable {levels : List Bool} {noFiles : Bool} {files : List String} {folders : List FolderTree}
  {tree folder : FolderTree} {line : FolderLine} {depth : Nat}

/-! ## Labels -/

/-- The name of the folder that a label stands for, if it stands for one. -/
def folderName? (label : String) : Option String :=
  if label.toList.getLast? = some '/' then some (String.ofList label.toList.dropLast) else none

theorem folderName?_slash (name : String) : folderName? (name ++ "/") = some name := by
  have hchars : (name ++ "/").toList = name.toList ++ ['/'] := String.toList_append
  unfold folderName?
  rw [hchars, List.getLast?_concat, if_pos rfl, List.dropLast_concat, String.ofList_toList]

theorem folderName?_of_not_mem {label : String} (h : '/' ∉ label.toList) :
    folderName? label = none := by
  unfold folderName?
  rw [if_neg]
  exact fun hlast => h (List.mem_of_getLast? hlast)

/-! ## Taking lines apart -/

/-- Whether a line lies deeper than a depth. -/
def liesBelow (depth : Nat) (line : FolderLine) : Bool :=
  decide (depth < line.levels.length)

/-- The files and folders that lines at a depth, and those below them, tell of. -/
def outlineOf (depth : Nat) : List FolderLine → List String × List FolderTree
  | [] => ([], [])
  | line :: rest =>
    let inner := rest.takeWhile (liesBelow depth)
    let others := outlineOf depth (rest.dropWhile (liesBelow depth))
    match folderName? line.label with
    | none => (line.label :: others.1, others.2)
    | some name =>
      let held := outlineOf (depth + 1) inner
      (others.1, .node name held.1 held.2 :: others.2)
termination_by lines => lines.length
decreasing_by
  · exact Nat.lt_succ_of_le (List.dropWhile_sublist _).length_le
  · exact Nat.lt_succ_of_le (List.takeWhile_sublist _).length_le

/-- The files and folders that the text of a drawn tree tells of. -/
def readOutline (connectors : Connectors) (lines : List String) : List String × List FolderTree :=
  outlineOf 0 (lines.filterMap fun line => FolderLine.read? connectors line.toList)

/-! ## Where lines lie -/

theorem levels_of_mem_fileLines (h : line ∈ fileLines levels files) : line.levels = levels := by
  induction files with
  | nil => cases h
  | cons file rest ih =>
      rcases List.mem_cons.mp h with rfl | h
      · rfl
      · exact ih h

theorem subfolderLines_cons (levels : List Bool) (noFiles : Bool) (folder : FolderTree)
    (rest : List FolderTree) :
    subfolderLines levels noFiles (folder :: rest) =
      ⟨levels, rest.isEmpty && noFiles, folder.name ++ "/"⟩ ::
        (folderLines (levels ++ [rest.isEmpty && noFiles]) folder
          ++ subfolderLines levels noFiles rest) := rfl

theorem prefix_of_mem_subfolderLines
    (hfolders : ∀ sub ∈ folders, ∀ levels, line ∈ folderLines levels sub → levels <+: line.levels)
    (h : line ∈ subfolderLines levels noFiles folders) : levels <+: line.levels := by
  induction folders with
  | nil => cases h
  | cons folder rest ih =>
      obtain ⟨hfolder, hrest⟩ := List.forall_mem_cons.mp hfolders
      rw [subfolderLines_cons] at h
      rcases List.mem_cons.mp h with rfl | h
      · exact List.prefix_rfl
      · rcases List.mem_append.mp h with h | h
        · exact (List.prefix_append levels _).trans (hfolder _ h)
        · exact ih hrest h

/-- All lines below a folder lie below its levels. -/
theorem prefix_of_mem_folderLines (h : line ∈ folderLines levels tree) : levels <+: line.levels := by
  induction tree using FolderTree.induction generalizing levels with
  | node name files folders ih =>
      rw [folderLines] at h
      rcases List.mem_append.mp h with h | h
      · exact prefix_of_mem_subfolderLines (fun sub hsub levels => ih sub hsub) h
      · exact (levels_of_mem_fileLines h).symm ▸ List.prefix_rfl

/-- What stands below a folder lies deeper than the folder. -/
theorem liesBelow_of_mem_folderLines {isLast : Bool}
    (h : line ∈ folderLines (levels ++ [isLast]) tree) : liesBelow levels.length line = true := by
  have hlength := (prefix_of_mem_folderLines h).length_le
  rw [List.length_append, List.length_singleton] at hlength
  exact decide_eq_true hlength

/-- The items of one folder begin with one that lies no deeper. -/
theorem liesBelow_of_mem_head?
    (h : line ∈ (subfolderLines levels noFiles folders ++ fileLines levels files).head?) :
    liesBelow levels.length line = false := by
  have hlevels : line.levels = levels := by
    match folders, files with
    | [], [] => cases h
    | [], _ :: _ =>
        cases h
        rfl
    | _ :: _, _ =>
        rw [subfolderLines_cons] at h
        cases h
        rfl
  unfold liesBelow
  rw [hlevels, decide_eq_false (Nat.lt_irrefl _)]

/-! ## Folders and files, recovered -/

section

variable {inner after : List FolderLine} {name : String} {isLast : Bool}

/-- A file has nothing below it. -/
theorem outlineOf_file (hname : '/' ∉ name.toList)
    (hafter : ∀ line ∈ after.head?, liesBelow depth line = false) :
    outlineOf depth (⟨levels, isLast, name⟩ :: after) =
      (name :: (outlineOf depth after).1, (outlineOf depth after).2) := by
  have hdrop : after.dropWhile (liesBelow depth) = after :=
    Text.dropWhile_append_of_stop (List.forall_mem_nil _) hafter
  rw [outlineOf]
  simp only [folderName?_of_not_mem hname, hdrop]

/-- A folder has below it what lies deeper. -/
theorem outlineOf_folder (hinner : ∀ line ∈ inner, liesBelow depth line = true)
    (hafter : ∀ line ∈ after.head?, liesBelow depth line = false) :
    outlineOf depth (⟨levels, isLast, name ++ "/"⟩ :: (inner ++ after)) =
      ((outlineOf depth after).1,
        .node name (outlineOf (depth + 1) inner).1 (outlineOf (depth + 1) inner).2
          :: (outlineOf depth after).2) := by
  have htake := Text.takeWhile_append_of_stop hinner hafter
  have hdrop := Text.dropWhile_append_of_stop hinner hafter
  rw [outlineOf]
  simp only [folderName?_slash, htake, hdrop]

end

/-- **`PlainFiles folder`** — no file in the folder has a slash in its name. -/
def PlainFiles (folder : FolderTree) : Prop :=
  ∀ file ∈ folder.files, '/' ∉ file.toList

theorem outlineOf_fileLines (h : ∀ file ∈ files, '/' ∉ file.toList) :
    outlineOf levels.length (fileLines levels files) = (files, []) := by
  induction files with
  | nil => rw [fileLines, outlineOf]
  | cons file rest ih =>
      obtain ⟨hfile, hrest⟩ := List.forall_mem_cons.mp h
      have hafter : ∀ line ∈ (fileLines levels rest).head?,
          liesBelow levels.length line = false := by
        intro line hline
        have hitem : line ∈ (subfolderLines levels false [] ++ fileLines levels rest).head? := hline
        exact liesBelow_of_mem_head? hitem
      rw [fileLines, outlineOf_file hfile hafter, ih hrest]

/-- Folders that each are told by their lines are told one after another, and files after them. -/
theorem outlineOf_items (hfiles : ∀ file ∈ files, '/' ∉ file.toList)
    (hfolders : ∀ sub ∈ folders, ∀ levels : List Bool,
      outlineOf levels.length (folderLines levels sub) = (sub.files, sub.folders)) :
    outlineOf levels.length (subfolderLines levels noFiles folders ++ fileLines levels files) =
      (files, folders) := by
  induction folders with
  | nil => exact outlineOf_fileLines hfiles
  | cons folder rest ih =>
      obtain ⟨hfolder, hrest⟩ := List.forall_mem_cons.mp hfolders
      have hheld := hfolder (levels ++ [rest.isEmpty && noFiles])
      rw [List.length_append, List.length_singleton] at hheld
      rw [subfolderLines_cons, List.cons_append, List.append_assoc,
        outlineOf_folder (fun line hline => liesBelow_of_mem_folderLines hline)
          (fun line hline => liesBelow_of_mem_head? hline), hheld, ih hrest]
      cases folder
      rfl

/-- **The lines below a folder tell its files and its folders.** -/
theorem outlineOf_folderLines (h : FolderTree.Everywhere PlainFiles tree) (levels : List Bool) :
    outlineOf levels.length (folderLines levels tree) = (tree.files, tree.folders) := by
  induction tree using FolderTree.induction generalizing levels with
  | node name files folders ih =>
      obtain ⟨hfiles, hfolders⟩ := FolderTree.everywhere_node.mp h
      rw [folderLines]
      exact outlineOf_items hfiles fun sub hsub levels => ih sub hsub (hfolders sub hsub) levels

/-- What is read of a drawn tree is its files and its folders. -/
theorem readOutline_folderLines {connectors : Connectors} (hlegible : connectors.Legible)
    (h : FolderTree.Everywhere PlainFiles tree) :
    readOutline connectors ((folderLines [] tree).map (·.text connectors)) =
      (tree.files, tree.folders) := by
  have hread : ((folderLines [] tree).map (·.text connectors)).filterMap
      (fun line => FolderLine.read? connectors line.toList) = folderLines [] tree := by
    rw [List.filterMap_map, ← List.filterMap_some (l := folderLines [] tree), List.filterMap_filterMap]
    exact List.filterMap_congr fun line _ => FolderLine.read?_text hlegible line
  unfold readOutline
  rw [hread]
  exact outlineOf_folderLines h []

/-! ## Connectors -/

/-- What is told of a folder's own items: its folders, with a slash behind each, and its files. -/
def itemLabels (folder : FolderTree) : List String :=
  folder.folders.map (·.name ++ "/") ++ folder.files

/-- Of the lines below a folder, those of its own items: they stand at its levels, not deeper. -/
def itemLines (levels : List Bool) (folder : FolderTree) : List FolderLine :=
  (folderLines levels folder).filter (·.levels == levels)

theorem filter_fileLines (levels : List Bool) (files : List String) :
    (fileLines levels files).filter (·.levels == levels) = fileLines levels files :=
  List.filter_eq_self.mpr fun _ hline => beq_iff_eq.mpr (levels_of_mem_fileLines hline)

/-- What stands below a folder is no item beside it. -/
theorem filter_folderLines_deeper (levels : List Bool) (isLast : Bool) (folder : FolderTree) :
    (folderLines (levels ++ [isLast]) folder).filter (·.levels == levels) = [] := by
  refine List.filter_eq_nil_iff.mpr fun line hline heq => ?_
  have hdeeper := liesBelow_of_mem_folderLines hline
  rw [liesBelow, beq_iff_eq.mp heq, decide_eq_false (Nat.lt_irrefl _)] at hdeeper
  cases hdeeper

/-- The items of a folder are drawn one under the other, in their order. -/
theorem itemLines_eq (levels : List Bool) (folder : FolderTree) :
    itemLines levels folder = fileLines levels (itemLabels folder) := by
  obtain ⟨name, files, folders⟩ := folder
  unfold itemLines itemLabels
  rw [folderLines, List.filter_append, filter_fileLines]
  show _ = fileLines levels (folders.map (·.name ++ "/") ++ files)
  induction folders with
  | nil => rfl
  | cons folder rest ih =>
      have hlast : (rest.map (·.name ++ "/") ++ files).isEmpty = (rest.isEmpty && files.isEmpty) := by
        cases rest <;> rfl
      rw [subfolderLines_cons, List.filter_cons_of_pos (by simp), List.filter_append,
        filter_folderLines_deeper, List.nil_append, List.cons_append, ih, List.map_cons,
        List.cons_append, fileLines, hlast]

/-- Items that are drawn one under the other: all but the final one branch off. -/
theorem map_text_fileLines (connectors : Connectors) (levels : List Bool) (labels : List String) :
    (fileLines levels labels).map (·.text connectors) =
      (labels.dropLast.map (connectors.indent levels ++ connectors.branch ++ ·)) ++
        labels.getLast?.toList.map (connectors.indent levels ++ connectors.last ++ ·) := by
  induction labels with
  | nil => rfl
  | cons label rest ih =>
      cases rest with
      | nil => rfl
      | cons next rest =>
          rw [fileLines, List.map_cons, ih]
          rfl

/-- The lines below one of several folders are a block of their lines. -/
theorem exists_infix_subfolderLines (h : folder ∈ folders) (levels : List Bool) (noFiles : Bool) :
    ∃ deeper, folderLines deeper folder <:+: subfolderLines levels noFiles folders := by
  induction folders with
  | nil => cases h
  | cons first rest ih =>
      rw [subfolderLines_cons]
      rcases List.mem_cons.mp h with rfl | h
      · exact ⟨_, (List.prefix_append _ _).isInfix.trans (List.suffix_cons _ _).isInfix⟩
      · obtain ⟨deeper, hblock⟩ := ih h
        exact ⟨deeper, hblock.trans
          ((List.suffix_append _ _).isInfix.trans (List.suffix_cons _ _).isInfix)⟩

/-- The lines below a folder that stands in a tree are a block of the lines of the tree. -/
theorem exists_infix_of_within (h : FolderTree.Within tree folder) (levels : List Bool) :
    ∃ deeper, folderLines deeper folder <:+: folderLines levels tree := by
  induction h generalizing levels with
  | self tree => exact ⟨levels, List.infix_rfl⟩
  | @inside tree sub folder hsub h ih =>
      obtain ⟨name, files, folders⟩ := tree
      obtain ⟨middle, hsubBlock⟩ := exists_infix_subfolderLines hsub levels files.isEmpty
      obtain ⟨deeper, hblock⟩ := ih middle
      exact ⟨deeper, (hblock.trans hsubBlock).trans (List.prefix_append _ _).isInfix⟩

/-! ## Drawn trees -/

/-- The text of a drawn tree, line for line. -/
def folderTexts (connectors : Connectors) (tree : FolderTree) : List String :=
  (folderLines [] tree).map (·.text connectors)

/-- The text of a folder's own items, line for line. -/
def itemTexts (connectors : Connectors) (levels : List Bool) (folder : FolderTree) : List String :=
  (itemLines levels folder).map (·.text connectors)

/-- **`Unambiguous connectors`** — a tree that is drawn with the connectors can be told from its
text. -/
structure Unambiguous (connectors : Connectors) : Prop where
  /-- The marks are of one width, and no two are the same. -/
  legible : connectors.Legible
  /-- The text is read back as the tree's files and folders, in order. -/
  recovered : ∀ tree, FolderTree.Everywhere PlainFiles tree →
    readOutline connectors (folderTexts connectors tree) = (tree.files, tree.folders)
  /-- Trees with the same text have the same files and folders; their own names are not drawn. -/
  apart : ∀ tree tree', FolderTree.Everywhere PlainFiles tree →
    FolderTree.Everywhere PlainFiles tree' →
    folderTexts connectors tree = folderTexts connectors tree' →
    tree.files = tree'.files ∧ tree.folders = tree'.folders
  /-- With their names above, trees that differ never have the same text. -/
  whole : ∀ tree tree', FolderTree.Everywhere PlainFiles tree →
    FolderTree.Everywhere PlainFiles tree' →
    tree.name :: folderTexts connectors tree = tree'.name :: folderTexts connectors tree' →
    tree = tree'
  /-- Wherever a folder stands in a tree, what is drawn below it is a block of the lines of the tree,
  and of its own items the final one has the last connector and every other one the branching one. -/
  connected : ∀ tree folder, FolderTree.Within tree folder → ∃ levels,
    folderLines levels folder <:+: folderLines [] tree ∧
      itemTexts connectors levels folder =
        ((itemLabels folder).dropLast.map
          fun label => connectors.indent levels ++ connectors.branch ++ label) ++
        (itemLabels folder).getLast?.toList.map
          fun label => connectors.indent levels ++ connectors.last ++ label

/-- Trees that are read back alike have the same files and folders. -/
theorem eq_of_folderTexts_eq {connectors : Connectors} (hlegible : connectors.Legible)
    {tree' : FolderTree} (h : FolderTree.Everywhere PlainFiles tree)
    (h' : FolderTree.Everywhere PlainFiles tree')
    (heq : folderTexts connectors tree = folderTexts connectors tree') :
    tree.files = tree'.files ∧ tree.folders = tree'.folders := by
  have hsame : (tree.files, tree.folders) = (tree'.files, tree'.folders) := by
    rw [← readOutline_folderLines hlegible h, ← readOutline_folderLines hlegible h']
    exact congrArg (readOutline connectors) heq
  exact ⟨congrArg Prod.fst hsame, congrArg Prod.snd hsame⟩

/-- **A drawn folder tree is unambiguous**, in both character sets. -/
theorem folderLines_unambiguous (style : String) : Unambiguous (.ofStyle style) := by
  have hlegible := Connectors.legible_ofStyle style
  refine
    { legible := hlegible
      recovered := fun tree h => readOutline_folderLines hlegible h
      apart := fun tree tree' h h' heq => eq_of_folderTexts_eq hlegible h h' heq
      whole := fun tree tree' h h' heq => ?_
      connected := fun tree folder hwithin => ?_ }
  · obtain ⟨hname, htexts⟩ := List.cons.inj heq
    obtain ⟨hfiles, hfolders⟩ := eq_of_folderTexts_eq hlegible h h' htexts
    cases tree
    cases tree'
    cases hname
    cases hfiles
    cases hfolders
    rfl
  · obtain ⟨levels, hblock⟩ := exists_infix_of_within hwithin []
    refine ⟨levels, hblock, ?_⟩
    unfold itemTexts
    rw [itemLines_eq, map_text_fileLines]

/-- A tree whose names are empty or look like marks. -/
def mimicTree : FolderTree :=
  .node "" ["", "└── x"] [.node "" ["│   a"] [], .node "├── b" [] [.node "    c" [""] []]]

theorem folderLines_unambiguous_mimicTree :
    FolderTree.Everywhere PlainFiles mimicTree ∧
      folderTexts .drawn mimicTree =
        ["├── /", "│   └── │   a", "├── ├── b/", "│   └──     c/", "│       └── ", "├── ",
          "└── └── x"] ∧
      readOutline .drawn (folderTexts .drawn mimicTree) = (mimicTree.files, mimicTree.folders) := by
  have hplain : FolderTree.Everywhere PlainFiles mimicTree := by
    simp [mimicTree, PlainFiles, FolderTree.files]
  exact ⟨hplain, by decide +kernel, (folderLines_unambiguous "tree").recovered _ hplain⟩

end SourceAtlas.Render
