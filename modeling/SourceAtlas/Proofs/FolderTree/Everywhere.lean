/-
# SourceAtlas.Proofs.FolderTree.Everywhere — what holds at every level of a folder tree.

A folder stands in a tree if it is the tree itself or stands in one of its folders (`Within`).  What
is said of every level of a tree is said of all folders that stand in it (`Everywhere`): of the tree
and, in the same way, of each of its folders (`everywhere_iff`).
-/
import SourceAtlas.FolderTree

namespace SourceAtlas.FolderTree

/-- **`Within tree folder`** — the folder is the tree or stands somewhere below it. -/
inductive Within : FolderTree → FolderTree → Prop
  | self (tree : FolderTree) : Within tree tree
  | inside {tree sub folder : FolderTree} (hsub : sub ∈ tree.folders) (h : Within sub folder) :
      Within tree folder

/-- **`Everywhere holds tree`** — the property holds of all folders that stand in the tree. -/
def Everywhere (holds : FolderTree → Prop) (tree : FolderTree) : Prop :=
  ∀ folder, Within tree folder → holds folder

variable {holds : FolderTree → Prop} {tree : FolderTree}

theorem everywhere_iff :
    Everywhere holds tree ↔ holds tree ∧ ∀ sub ∈ tree.folders, Everywhere holds sub := by
  constructor
  · intro h
    exact ⟨h tree (.self tree), fun sub hsub folder hfolder => h folder (.inside hsub hfolder)⟩
  · rintro ⟨htree, hsubs⟩ folder hfolder
    cases hfolder with
    | self => exact htree
    | inside hsub hfolder => exact hsubs _ hsub folder hfolder

@[simp] theorem everywhere_node {name : String} {files : List String} {folders : List FolderTree} :
    Everywhere holds (node name files folders) ↔
      holds (node name files folders) ∧ ∀ sub ∈ folders, Everywhere holds sub :=
  everywhere_iff

/-- What holds of a folder whenever it holds of its folders holds of every tree. -/
@[elab_as_elim]
theorem induction {motive : FolderTree → Prop}
    (node : ∀ name files folders, (∀ sub ∈ folders, motive sub) → motive (.node name files folders))
    (tree : FolderTree) : motive tree :=
  FolderTree.rec (motive_1 := motive) (motive_2 := fun folders => ∀ sub ∈ folders, motive sub)
    node (List.forall_mem_nil _) (fun _ _ hfirst hrest => List.forall_mem_cons.mpr ⟨hfirst, hrest⟩)
    tree

end SourceAtlas.FolderTree
