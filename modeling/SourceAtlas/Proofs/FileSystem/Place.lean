/-
# SourceAtlas.Proofs.FileSystem.Place — what there is at the places of a tree.

A place is told by names.  At a place there can be a file, of some content (`HoldsContent`) and so
of some size (`Holds`), or a failure: a folder that cannot be listed, or an entry that cannot be
examined (`Fails`).  Putting a tree in order changes neither, and the names of a place are names of
entries, so in a tree that is named and well formed they are not empty and hold no slash
(`Meets.isName`).
-/
import SourceAtlas.Proofs.FileSystem.Tree

namespace SourceAtlas.Entry

variable {tree : Entry} {names : List String} {size : Nat} {content : Content}

/-! ## Files and failures -/

/-- **`HoldsContent tree names content`** — names lead to a file of a content. -/
def HoldsContent (tree : Entry) (names : List String) (content : Content) : Prop :=
  ∃ name faults, tree.Reaches names (.file name faults content)

/-- **`Holds tree names size`** — names lead to a file of a size. -/
def Holds (tree : Entry) (names : List String) (size : Nat) : Prop :=
  ∃ content, tree.HoldsContent names content ∧ content.size = size

/-- **`Fails tree names`** — names lead to a folder that cannot be listed, or to an entry that
cannot be examined in a folder that can be listed. -/
inductive Fails : Entry → List String → Prop
  | unlisted (name : String) {faults : Faults} {entries : List Entry} (fails : faults.list = true) :
      Fails (.folder name faults entries) []
  | hidden (name : String) {faults : Faults} {entries : List Entry} {child : Entry}
      (listable : faults.list = false) (member : child ∈ entries)
      (fails : child.faults.examine = true) : Fails (.folder name faults entries) [child.name]
  | inside (name : String) {faults : Faults} {entries : List Entry} {child : Entry}
      {names : List String} (listable : faults.list = false) (member : child ∈ entries)
      (examinable : child.faults.examine = false) (further : Fails child names) :
      Fails (.folder name faults entries) (child.name :: names)

/-- **`Meets tree names`** — there is a file or a failure at a place. -/
def Meets (tree : Entry) (names : List String) : Prop :=
  (∃ size, tree.Holds names size) ∨ tree.Fails names

/-! ## Below a folder -/

variable {name : String} {faults : Faults} {entries : List Entry}

/-- A folder holds what its entries hold, if it can be listed and they can be examined. -/
theorem holdsContent_folder_iff :
    (Entry.folder name faults entries).HoldsContent names content ↔
      faults.list = false ∧ ∃ child ∈ entries, child.faults.examine = false ∧
        ∃ rest, names = child.name :: rest ∧ child.HoldsContent rest content := by
  constructor
  · rintro ⟨fileName, fileFaults, hreaches⟩
    cases hreaches with
    | inside _ listable member examinable further =>
        exact ⟨listable, _, member, examinable, _, rfl, fileName, fileFaults, further⟩
  · rintro ⟨listable, child, member, examinable, rest, rfl, fileName, fileFaults, hreaches⟩
    exact ⟨fileName, fileFaults, Reaches.inside name listable member examinable hreaches⟩

/-- A file holds its own content. -/
theorem holdsContent_file_iff {own : Content} :
    (Entry.file name faults own).HoldsContent names content ↔ names = [] ∧ own = content := by
  constructor
  · rintro ⟨fileName, fileFaults, hreaches⟩
    cases hreaches
    exact ⟨rfl, rfl⟩
  · rintro ⟨rfl, rfl⟩
    exact ⟨name, faults, Reaches.here _⟩

/-- A link holds nothing, for it is not followed. -/
theorem not_holdsContent_link {target : String} :
    ¬ (Entry.link name faults target).HoldsContent names content := by
  rintro ⟨fileName, fileFaults, hreaches⟩
  cases hreaches

/-- A folder is no file: what it holds is below it. -/
theorem HoldsContent.ne_nil (h : tree.HoldsContent names content) (hfolder : tree.isFolder = true) :
    names ≠ [] := by
  rintro rfl
  obtain ⟨name, faults, hreaches⟩ := h
  cases hreaches
  cases hfolder

/-- A folder fails itself, or one of its entries does, or something below that. -/
theorem fails_folder_iff :
    (Entry.folder name faults entries).Fails names ↔
      faults.list = true ∧ names = [] ∨
        faults.list = false ∧ ∃ child ∈ entries, ∃ rest, names = child.name :: rest ∧
          (child.faults.examine = true ∧ rest = [] ∨
            child.faults.examine = false ∧ child.Fails rest) := by
  constructor
  · intro h
    cases h with
    | unlisted _ fails => exact Or.inl ⟨fails, rfl⟩
    | hidden _ listable member fails =>
        exact Or.inr ⟨listable, _, member, [], rfl, Or.inl ⟨fails, rfl⟩⟩
    | inside _ listable member examinable further =>
        exact Or.inr ⟨listable, _, member, _, rfl, Or.inr ⟨examinable, further⟩⟩
  · rintro (⟨fails, rfl⟩ | ⟨listable, child, member, rest, rfl, ⟨fails, rfl⟩ | ⟨examinable, further⟩⟩)
    · exact Fails.unlisted name fails
    · exact Fails.hidden name listable member fails
    · exact Fails.inside name listable member examinable further

/-! ## Order -/

/-- A tree that is a folder when it is put in order is one before. -/
theorem exists_of_ordered_eq_folder
    (h : tree.ordered = .folder name faults entries) :
    ∃ unordered, tree = .folder name faults unordered ∧ orderedAll unordered = entries := by
  cases tree with
  | folder name' faults' unordered =>
      rw [ordered] at h
      cases h
      exact ⟨unordered, rfl, rfl⟩
  | _ =>
      rw [ordered] at h
      cases h

theorem eq_file_of_ordered
    (h : tree.ordered = .file name faults content) : tree = .file name faults content := by
  cases tree with
  | file name' faults' content' => rwa [ordered] at h
  | _ =>
      rw [ordered] at h
      cases h

/-- What is reached in a tree is reached in the ordered tree. -/
theorem Reaches.ordered {entry : Entry} (h : tree.Reaches names entry) :
    tree.ordered.Reaches names entry.ordered := by
  induction h with
  | here entry => exact Reaches.here _
  | @inside name faults entries child names entry listable member examinable further ih =>
      have hmember : child.ordered ∈ orderedAll entries := mem_orderedAll.mpr ⟨child, member, rfl⟩
      have hreach := Reaches.inside name listable hmember (by rwa [faults_ordered]) ih
      rw [name_ordered] at hreach
      rw [Entry.ordered]
      exact hreach

theorem holdsContent_ordered_iff :
    tree.ordered.HoldsContent names content ↔ tree.HoldsContent names content := by
  constructor
  · rintro ⟨name, faults, hreaches⟩
    obtain ⟨entry, hentry, hfile⟩ := exists_reaches_of_ordered hreaches
    rw [eq_file_of_ordered hfile] at hentry
    exact ⟨name, faults, hentry⟩
  · rintro ⟨name, faults, hreaches⟩
    have hordered := hreaches.ordered
    rw [ordered] at hordered
    exact ⟨name, faults, hordered⟩

theorem holds_ordered_iff : tree.ordered.Holds names size ↔ tree.Holds names size :=
  exists_congr fun _ => and_congr_left fun _ => holdsContent_ordered_iff

theorem Fails.ordered (h : tree.Fails names) : tree.ordered.Fails names := by
  induction h with
  | unlisted name fails =>
      rw [Entry.ordered]
      exact Fails.unlisted name fails
  | @hidden name faults entries child listable member fails =>
      have hmember : child.ordered ∈ orderedAll entries := mem_orderedAll.mpr ⟨child, member, rfl⟩
      have hfails := Fails.hidden name listable hmember (by rwa [faults_ordered])
      rw [name_ordered] at hfails
      rw [Entry.ordered]
      exact hfails
  | @inside name faults entries child names listable member examinable further ih =>
      have hmember : child.ordered ∈ orderedAll entries := mem_orderedAll.mpr ⟨child, member, rfl⟩
      have hfails := Fails.inside name listable hmember (by rwa [faults_ordered]) ih
      rw [name_ordered] at hfails
      rw [Entry.ordered]
      exact hfails

theorem fails_of_ordered (h : tree.ordered.Fails names) : tree.Fails names := by
  -- the induction is on the way to the failure in the ordered tree, and the tree follows it
  generalize hordered : tree.ordered = start at h
  induction h generalizing tree with
  | unlisted name fails =>
      obtain ⟨entries, rfl, -⟩ := exists_of_ordered_eq_folder hordered
      exact Fails.unlisted name fails
  | hidden name listable member fails =>
      obtain ⟨entries, rfl, rfl⟩ := exists_of_ordered_eq_folder hordered
      obtain ⟨child, hchild, rfl⟩ := mem_orderedAll.mp member
      rw [faults_ordered] at fails
      rw [name_ordered]
      exact Fails.hidden name listable hchild fails
  | inside name listable member examinable further ih =>
      obtain ⟨entries, rfl, rfl⟩ := exists_of_ordered_eq_folder hordered
      obtain ⟨child, hchild, rfl⟩ := mem_orderedAll.mp member
      rw [faults_ordered] at examinable
      rw [name_ordered]
      exact Fails.inside name listable hchild examinable (ih rfl)

theorem fails_ordered_iff : tree.ordered.Fails names ↔ tree.Fails names :=
  ⟨fails_of_ordered, Fails.ordered⟩

/-! ## Names -/

/-- **`Named tree`** — no entry below a tree has the empty name. -/
inductive Named : Entry → Prop
  | file (name : String) (faults : Faults) (content : Content) : Named (.file name faults content)
  | link (name : String) (faults : Faults) (target : String) : Named (.link name faults target)
  | special (name : String) (faults : Faults) : Named (.special name faults)
  | folder (name : String) (faults : Faults) {entries : List Entry}
      (named : ∀ entry ∈ entries, entry.name ≠ "") (inner : ∀ entry ∈ entries, Named entry) :
      Named (.folder name faults entries)

/-- **`IsName name`** — an entry can have the name. -/
def IsName (name : String) : Prop :=
  name ≠ "" ∧ '/' ∉ name.toList

/-- What holds of the names in a folder holds of each entry and of the names below it. -/
theorem isName_of_mem {child : Entry}
    (hformed : WellFormed (.folder name faults entries)) (hnamed : Named (.folder name faults entries))
    (member : child ∈ entries) : IsName child.name ∧ child.WellFormed ∧ child.Named := by
  cases hformed with
  | folder _ _ distinct slashless inner =>
      cases hnamed with
      | folder _ _ named innerNamed =>
          exact ⟨⟨named _ member, slashless _ member⟩, inner _ member, innerNamed _ member⟩

theorem Reaches.isName {entry : Entry} (h : tree.Reaches names entry) (hformed : tree.WellFormed)
    (hnamed : tree.Named) : ∀ name ∈ names, IsName name := by
  induction h with
  | here entry => exact fun name hname => absurd hname List.not_mem_nil
  | inside name listable member examinable further ih =>
      obtain ⟨hname, hchild, hchildNamed⟩ := isName_of_mem hformed hnamed member
      exact List.forall_mem_cons.mpr ⟨hname, ih hchild hchildNamed⟩

theorem Fails.isName (h : tree.Fails names) (hformed : tree.WellFormed) (hnamed : tree.Named) :
    ∀ name ∈ names, IsName name := by
  induction h with
  | unlisted name fails => exact fun name hname => absurd hname List.not_mem_nil
  | hidden name listable member fails =>
      exact List.forall_mem_singleton.mpr (isName_of_mem hformed hnamed member).1
  | inside name listable member examinable further ih =>
      obtain ⟨hname, hchild, hchildNamed⟩ := isName_of_mem hformed hnamed member
      exact List.forall_mem_cons.mpr ⟨hname, ih hchild hchildNamed⟩

/-- **The names of a place are names of entries.** -/
theorem Meets.isName (h : tree.Meets names) (hformed : tree.WellFormed) (hnamed : tree.Named) :
    ∀ name ∈ names, IsName name := by
  rcases h with ⟨size, content, ⟨name, faults, hreaches⟩, -⟩ | hfails
  · exact hreaches.isName hformed hnamed
  · exact hfails.isName hformed hnamed

end SourceAtlas.Entry
