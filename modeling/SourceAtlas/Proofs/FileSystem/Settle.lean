/-
# SourceAtlas.Proofs.FileSystem.Settle — the place below a root that a path means.

A place is told by the names on the way to it.  In a tree whose names stand in paths for themselves
(`Sound`), names that lead to an entry mean its place, for on the way there are folders and no links
(`settleFrom_names`).  Behind a path that means the place of a root they mean the place
below it (`settle_join`), and told from the root, that place is the names with slashes between them
again (`relativeTo_pathOf`).
-/
import SourceAtlas.FileSystem.Settle
import SourceAtlas.Proofs.FileSystem.Place
import SourceAtlas.Proofs.Path.Tidy

namespace SourceAtlas

namespace Path

variable {base path : List Char} {parts : List (List Char)}

/-! ## Absolute paths -/

/-- An absolute path made of kept segments has these segments. -/
theorem absoluteSegments_kept (current : List Char) (h : ∀ s ∈ parts, IsKept s ∧ '/' ∉ s) :
    absoluteSegments current ('/' :: joined parts) = parts := by
  have hjoin : joinChars current ('/' :: joined parts) = ['/'] ++ joined parts := rfl
  unfold absoluteSegments
  rw [hjoin, collapse_segments_front (Or.inl rfl) fun s hs => (h s hs).2,
    collapse_kept fun s hs => (h s hs).1]

theorem isAbsolute_joinChars (h : isAbsolute base = true) :
    isAbsolute (joinChars base path) = true := by
  cases base with
  | nil => cases h
  | cons c rest =>
      unfold joinChars
      split
      · assumption
      · split <;> exact h

theorem dropCommon_append (front back : List (List Char)) :
    dropCommon front (front ++ back) = ([], back) := by
  induction front with
  | nil => cases back <;> rfl
  | cons s front ih => rw [List.cons_append, dropCommon, if_pos (beq_self_eq_true s), ih]

end Path

namespace Entry

variable {tree entry child : Entry} {names : List String}

/-! ## Names that stand for themselves -/

/-- **`Undotted tree`** — no entry below a tree is called `.` or `..`. -/
inductive Undotted : Entry → Prop
  | file (name : String) (faults : Faults) (content : Content) : Undotted (.file name faults content)
  | link (name : String) (faults : Faults) (target : String) : Undotted (.link name faults target)
  | special (name : String) (faults : Faults) : Undotted (.special name faults)
  | folder (name : String) (faults : Faults) {entries : List Entry}
      (undotted : ∀ entry ∈ entries, entry.name ≠ "." ∧ entry.name ≠ "..")
      (inner : ∀ entry ∈ entries, Undotted entry) : Undotted (.folder name faults entries)

/-- **`Sound tree`** — names are as file systems have them: distinct within each folder, without a
slash, not empty, and neither `.` nor `..`. -/
structure Sound (tree : Entry) : Prop where
  formed : tree.WellFormed
  named : tree.Named
  undotted : tree.Undotted

/-- **`IsProper name`** — the name of an entry that means nothing else in a path. -/
def IsProper (name : String) : Prop :=
  IsName name ∧ name ≠ "." ∧ name ≠ ".."

instance : DecidablePred IsProper :=
  fun _ => inferInstanceAs (Decidable ((_ ∧ _) ∧ _ ∧ _))

theorem IsProper.slash_not_mem {name : String} (h : IsProper name) : '/' ∉ name.toList :=
  h.1.2

theorem IsProper.isKept {name : String} (h : IsProper name) : Path.IsKept name.toList :=
  ⟨fun heq => h.1.1 (String.toList_injective heq), fun heq => h.2.1 (String.toList_injective heq),
    fun heq => h.2.2 (String.toList_injective heq)⟩

theorem Sound.file (name : String) (faults : Faults) (content : Content) :
    Sound (.file name faults content) :=
  ⟨.file name faults content, .file name faults content, .file name faults content⟩

/-- A folder is sound if its entries are and their names are distinct and proper. -/
theorem Sound.folder (name : String) (faults : Faults) {entries : List Entry}
    (distinct : (entries.map Entry.name).Nodup) (proper : ∀ entry ∈ entries, IsProper entry.name)
    (inner : ∀ entry ∈ entries, Sound entry) : Sound (.folder name faults entries) where
  formed := .folder name faults distinct (fun entry hentry => (proper entry hentry).slash_not_mem)
    fun entry hentry => (inner entry hentry).formed
  named := .folder name faults (fun entry hentry => (proper entry hentry).1.1)
    fun entry hentry => (inner entry hentry).named
  undotted := .folder name faults (fun entry hentry => (proper entry hentry).2)
    fun entry hentry => (inner entry hentry).undotted

theorem Sound.of_mem (h : tree.Sound) (hchild : child ∈ tree.entries) :
    IsProper child.name ∧ child.Sound := by
  obtain ⟨hformed, hnamed, hundotted⟩ := h
  cases hundotted with
  | folder name faults undotted inner =>
      obtain ⟨hname, hchildFormed, hchildNamed⟩ := isName_of_mem hformed hnamed hchild
      exact ⟨⟨hname, undotted child hchild⟩, hchildFormed, hchildNamed, inner child hchild⟩
  | _ => cases hchild

/-- What names lead to is sound as well, and the names are proper. -/
theorem Sound.of_at? (h : tree.Sound) (hentry : tree.at? names = some entry) :
    entry.Sound ∧ ∀ name ∈ names, IsProper name := by
  induction names generalizing tree with
  | nil =>
      cases hentry
      exact ⟨h, List.forall_mem_nil _⟩
  | cons name rest ih =>
      rw [at?] at hentry
      cases hfind : tree.entries.find? (·.name == name) with
      | none =>
          rw [hfind] at hentry
          cases hentry
      | some child =>
          rw [hfind] at hentry
          obtain ⟨hname, hchild⟩ := h.of_mem (List.mem_of_find?_eq_some hfind)
          obtain ⟨hsound, hrest⟩ := ih hchild hentry
          have heq : child.name = name := by simpa using List.find?_some hfind
          rw [heq] at hname
          exact ⟨hsound, List.forall_mem_cons.mpr ⟨hname, hrest⟩⟩

/-! ## Names behind names -/

theorem at?_append (tree : Entry) (first rest : List String) :
    tree.at? (first ++ rest) = (tree.at? first).bind (·.at? rest) := by
  induction first generalizing tree with
  | nil => rfl
  | cons name first ih =>
      rw [List.cons_append, at?, at?]
      cases tree.entries.find? (·.name == name) with
      | none => rfl
      | some child => exact ih child

/-- **`Stands tree names`** — names lead to an entry that is no link. -/
def Stands (tree : Entry) (names : List String) : Prop :=
  ∃ entry, tree.at? names = some entry ∧ ∀ name faults target, entry ≠ .link name faults target

/-- Names lead on from folders alone, so what stands on the way is no link either. -/
theorem Stands.of_append {rest : List String} (h : tree.Stands (names ++ rest)) :
    tree.Stands names := by
  obtain ⟨entry, hentry, hnolink⟩ := h
  rw [at?_append] at hentry
  obtain ⟨middle, hmiddle, hfurther⟩ := Option.bind_eq_some_iff.mp hentry
  refine ⟨middle, hmiddle, ?_⟩
  rintro name faults target rfl
  cases rest with
  | nil => exact hnolink name faults target (Option.some.inj hfurther).symm
  | cons other rest => cases hfurther

end Entry

namespace FileSystem

open Entry (IsProper)

variable {fs : FileSystem} {top : Entry} {links : Nat} {place names first target : List String}
  {root path : String}

/-! ## The place that segments mean -/

section Segment

variable {segment : String} {rest : List String}

theorem settleFrom_up :
    settleFrom top links place (".." :: rest) = settleFrom top links place.tail rest := by
  rw [settleFrom, if_pos rfl]

theorem settleFrom_link (hup : segment ≠ "..") {name linkTarget : String} {faults : Faults}
    (hlink : top.at? (segment :: place).reverse = some (.link name faults linkTarget)) :
    settleFrom top (links + 1) place (segment :: rest) =
      settleFrom top links (if Path.isAbsolute linkTarget.toList then [] else place)
        (segmentsOf linkTarget ++ rest) := by
  rw [settleFrom, if_neg hup]
  simp only [hlink]

theorem settleFrom_name (hup : segment ≠ "..")
    (hnolink : ∀ name faults target,
      top.at? (segment :: place).reverse ≠ some (.link name faults target)) :
    settleFrom top links place (segment :: rest) = settleFrom top links (segment :: place) rest := by
  rw [settleFrom, if_neg hup]
  split
  · rename_i hlink
    exact absurd hlink (hnolink _ _ _)
  · rfl

end Segment

/-- Segments behind others mean what they mean from the place of those, with the links that are
left. -/
theorem settleFrom_append (h : settleFrom top links place first = .ok target) :
    ∃ left, ∀ rest,
      settleFrom top links place (first ++ rest) = settleFrom top left target.reverse rest := by
  -- a link puts the segments of its target in front, so the place and the links left vary together
  fun_induction settleFrom top links place first with
  | case1 links place =>
      cases h
      exact ⟨links, fun rest => by rw [List.nil_append, List.reverse_reverse]⟩
  | case2 links place first ih =>
      obtain ⟨left, hleft⟩ := ih h
      refine ⟨left, fun rest => ?_⟩
      rw [List.cons_append, settleFrom_up, hleft]
  | case3 => cases h
  | case4 place segment first hup name faults linkTarget hlink links start ih =>
      obtain ⟨left, hleft⟩ := ih h
      refine ⟨left, fun rest => ?_⟩
      rw [List.cons_append, settleFrom_link hup hlink, ← List.append_assoc]
      exact hleft rest
  | case5 links place segment first hup hnolink ih =>
      obtain ⟨left, hleft⟩ := ih h
      refine ⟨left, fun rest => ?_⟩
      rw [List.cons_append, settleFrom_name hup hnolink, hleft]

/-- Where segments lead to an entry, they mean its place. -/
theorem settleFrom_of_follow (h : follow top links place first = .ok (.present target)) :
    settleFrom top links place first = .ok target := by
  fun_induction follow top links place first with
  | case1 links place =>
      cases h
      rw [settleFrom]
  | case2 links place rest ih => rw [settleFrom_up, ih h]
  | case3 | case4 | case6 | case9 => cases h
  | case5 links place segment rest hup name faults entries hfolder ih =>
      rw [settleFrom_name hup, ih h]
      intro linkName linkFaults linkTarget hlink
      rw [hfolder] at hlink
      cases hlink
  | case7 place segment rest hup name faults linkTarget hlink links start ih =>
      rw [settleFrom_link hup hlink]
      exact ih h
  | case8 links place segment rest hup entry hnofolder hnolink hentry hlast =>
      cases h
      rw [List.isEmpty_iff.mp hlast, settleFrom_name hup, settleFrom]
      intro name faults linkTarget hlink
      rw [hentry] at hlink
      exact hnolink _ _ _ (Option.some.inj hlink)

/-- **Names that lead to an entry mean its place**, if it is no link. -/
theorem settleFrom_names (h : top.Stands (place.reverse ++ names)) (hup : ".." ∉ names) :
    settleFrom top links place names = .ok (place.reverse ++ names) := by
  induction names generalizing place with
  | nil => rw [settleFrom, List.append_nil]
  | cons name rest ih =>
      have hnext : (name :: place).reverse ++ rest = place.reverse ++ name :: rest := by simp
      rw [← hnext] at h ⊢
      -- the name itself stands on the way, so it is no link
      obtain ⟨hname, hrest⟩ := not_or.mp (List.mem_cons.not.mp hup)
      obtain ⟨middle, hmiddle, hnolink⟩ := h.of_append
      rw [settleFrom_name (Ne.symm hname), ih h hrest]
      intro linkName faults target hlink
      rw [hmiddle] at hlink
      exact hnolink _ _ _ (Option.some.inj hlink)

/-! ## The place that a path means -/

/-- Where a path leads to an entry, it means its place. -/
theorem settle_of_place? (h : fs.place? root = some place) : fs.settle root = .ok place := by
  unfold place? locate at h
  split at h
  · rename_i target hfollow
    cases h
    exact settleFrom_of_follow hfollow
  · cases h

/-- The tidy form of a path leads where the path leads. -/
theorem place?_tidied (fs : FileSystem) (path : String) :
    fs.place? (Path.tidied path) = fs.place? path := by
  unfold place? locate segmentsOf Path.tidied
  rw [String.toList_ofList, Path.isAbsolute_tidy, Path.tidySegments_tidy]

/-- The segments of a path behind another are those of both. -/
theorem segmentsOf_join (hrelative : Path.isAbsolute path.toList = false) :
    segmentsOf (Path.join root path) = segmentsOf root ++ segmentsOf path := by
  unfold segmentsOf Path.join
  rw [String.toList_ofList, Path.tidySegments_joinChars hrelative, List.map_append]

/-! ## Proper names with slashes between them -/

theorem forall_mem_map_toList (hnames : ∀ name ∈ names, IsProper name) :
    ∀ part ∈ names.map String.toList, Path.IsKept part ∧ '/' ∉ part := by
  intro part hpart
  obtain ⟨name, hname, rfl⟩ := List.mem_map.mp hpart
  exact ⟨(hnames name hname).isKept, (hnames name hname).slash_not_mem⟩

theorem forall_isTidy (hnames : ∀ name ∈ names, IsProper name) :
    ∀ part ∈ names.map String.toList, Path.IsTidy part := by
  intro part hpart
  obtain ⟨⟨hne, hdot, -⟩, hslash⟩ := forall_mem_map_toList hnames part hpart
  exact ⟨hne, hdot, hslash⟩

theorem toList_intercalate_slash (names : List String) :
    ("/".intercalate names).toList = Path.joined (names.map String.toList) :=
  String.toList_intercalate

theorem toList_pathOf (place : List String) :
    (pathOf place).toList = '/' :: Path.joined (place.map String.toList) := by
  unfold pathOf
  rw [String.toList_append, toList_intercalate_slash]
  rfl

theorem segmentsOf_intercalate (hnames : ∀ name ∈ names, IsProper name) :
    segmentsOf ("/".intercalate names) = names := by
  unfold segmentsOf
  rw [toList_intercalate_slash, Path.tidySegments_joined (forall_isTidy hnames),
    Text.map_ofList_map_toList]

theorem segmentsOf_pathOf (hplace : ∀ name ∈ place, IsProper name) :
    segmentsOf (pathOf place) = place := by
  unfold segmentsOf
  rw [toList_pathOf, ← List.singleton_append,
    Path.tidySegments_front (Or.inl rfl) (forall_isTidy hplace), Text.map_ofList_map_toList]

theorem isAbsolute_intercalate (hnames : ∀ name ∈ names, IsProper name) :
    Path.isAbsolute ("/".intercalate names).toList = false := by
  rw [toList_intercalate_slash]
  exact beq_eq_false_iff_ne.mpr (Path.head?_joined_tidy (forall_isTidy hnames))

/-! ## Below a root -/

/-- The absolute path of a place means the place. -/
theorem settle_pathOf (hplace : ∀ name ∈ place, IsProper name) (hstands : fs.top.Stands place) :
    fs.settle (pathOf place) = .ok place := by
  have habsolute : Path.isAbsolute (pathOf place).toList = true := by
    rw [toList_pathOf]
    rfl
  unfold settle
  rw [habsolute, segmentsOf_pathOf hplace]
  exact settleFrom_names hstands fun hmem => (hplace _ hmem).2.2 rfl

/-- **Behind a path that means the place of a root, names mean the place below it.** -/
theorem settle_join (habsolute : Path.isAbsolute root.toList = true)
    (hroot : fs.settle root = .ok place) (hnames : ∀ name ∈ names, IsProper name)
    (hstands : fs.top.Stands (place ++ names)) :
    fs.settle (Path.join root ("/".intercalate names)) = .ok (place ++ names) := by
  have hjoined : Path.isAbsolute (Path.join root ("/".intercalate names)).toList = true := by
    unfold Path.join
    rw [String.toList_ofList]
    exact Path.isAbsolute_joinChars habsolute
  unfold settle at hroot ⊢
  rw [habsolute, if_pos rfl] at hroot
  obtain ⟨left, hleft⟩ := settleFrom_append hroot
  -- the names need no links, so it does not matter how many the root has left
  rw [hjoined, if_pos rfl, segmentsOf_join (isAbsolute_intercalate hnames),
    segmentsOf_intercalate hnames, hleft,
    settleFrom_names (by rwa [List.reverse_reverse]) fun hmem => (hnames _ hmem).2.2 rfl,
    List.reverse_reverse]

/-- **Told from the root, a place below it is the names on the way.** -/
theorem relativeTo_pathOf (current : String) (hplace : ∀ name ∈ place, IsProper name)
    (hnames : ∀ name ∈ names, IsProper name) (hne : names ≠ []) :
    Path.relativeTo current (pathOf place) (pathOf (place ++ names)) = "/".intercalate names := by
  have hboth : ∀ name ∈ place ++ names, IsProper name := fun name hname =>
    (List.mem_append.mp hname).elim (hplace name) (hnames name)
  have hgiven : (pathOf (place ++ names)).isEmpty = false := by
    unfold pathOf
    simp
  have hbelow : Path.assemble [] (names.map String.toList) =
      Path.joined (names.map String.toList) := by
    unfold Path.assemble
    rw [if_neg (by simpa using hne), List.nil_append]
  unfold Path.relativeTo
  rw [hgiven, toList_pathOf, toList_pathOf,
    Path.absoluteSegments_kept _ (forall_mem_map_toList hplace),
    Path.absoluteSegments_kept _ (forall_mem_map_toList hboth), List.map_append,
    Path.dropCommon_append]
  simp only [Bool.false_eq_true, if_false]
  rw [hbelow, ← toList_intercalate_slash, String.ofList_toList]

end FileSystem

end SourceAtlas
