/-
# SourceAtlas.Proofs.Walk.Exact — a walk tells of every file and of every failure.

The trails of a walk are the places of the tree at which there is a file or a failure, each once and
in strictly increasing order, name by name (`mem_trails_sized_iff`, `mem_trails_failure_iff`).  So a
listing is complete, and tells of nothing else (`lists_listing`): this is an induction over the tree
for each of the two kinds of places, in both directions.

What files come to is then told by the listing alone: totals count all files, whatever folder they
are in, and the rest keeps what lies outside the excluded folders (`sortsOut_classify`).
-/
import Mathlib.Algebra.BigOperators.Ring.Finset
import Mathlib.Algebra.Order.BigOperators.Group.List
import Mathlib.Algebra.Order.Group.Nat
import SourceAtlas.Proofs.FileSystem.Place
import SourceAtlas.Proofs.Text.Case
import SourceAtlas.Proofs.Walk.Chunks
import SourceAtlas.Proofs.Walk.Tracked

namespace SourceAtlas.Walk

open Entry

variable {tree root : Entry} {names : List String}

/-! ## Trails and places -/

/-- What leads to a file is a trail with its size. -/
theorem yields_of_reaches {name : String} {faults : Faults} {content : Content}
    (h : tree.Reaches names (.file name faults content)) (hexamine : tree.faults.examine = false) :
    Yields tree ⟨tree.name :: names, some content.size⟩ := by
  generalize hleaf : Entry.file name faults content = leaf at h
  induction h with
  | here entry =>
      subst hleaf
      exact Yields.file hexamine
  | inside folderName listable member examinable further ih =>
      exact Yields.inside hexamine listable member (ih examinable hleaf)

theorem yields_sized_iff {size : Nat} :
    Yields tree ⟨names, some size⟩ ↔
      tree.faults.examine = false ∧ ∃ rest, names = tree.name :: rest ∧ tree.Holds rest size := by
  constructor
  · intro h
    obtain ⟨hexamine, rest, name, faults, content, hnames, hreaches, hsize⟩ := h.exists_reaches rfl
    exact ⟨hexamine, rest, hnames, content, ⟨name, faults, hreaches⟩, hsize⟩
  · rintro ⟨hexamine, rest, rfl, content, ⟨name, faults, hreaches⟩, rfl⟩
    exact yields_of_reaches hreaches hexamine

/-- A trail without a size leads to a failure. -/
theorem Yields.fails {trail : Trail} (h : Yields tree trail) (hsize : trail.size = none) :
    ∃ rest, trail.names = tree.name :: rest ∧
      (tree.faults.examine = true ∧ rest = [] ∨ tree.faults.examine = false ∧ tree.Fails rest) := by
  induction h with
  | hidden fails => exact ⟨[], rfl, Or.inl ⟨fails, rfl⟩⟩
  | @unlisted name faults entries examinable fails =>
      exact ⟨[], rfl, Or.inr ⟨examinable, Fails.unlisted name fails⟩⟩
  | file examinable => cases hsize
  | @inside name faults entries child trail examinable listable member further ih =>
      obtain ⟨rest, hnames, hrest⟩ := ih hsize
      refine ⟨trail.names, rfl, Or.inr ⟨examinable, ?_⟩⟩
      exact fails_folder_iff.mpr (Or.inr ⟨listable, child, member, rest, hnames, hrest⟩)

/-- What leads to a failure is a trail without a size. -/
theorem yields_of_fails (h : tree.Fails names) (hexamine : tree.faults.examine = false) :
    Yields tree ⟨tree.name :: names, none⟩ := by
  induction h with
  | unlisted name fails => exact Yields.unlisted hexamine fails
  | hidden name listable member fails =>
      exact Yields.inside hexamine listable member (Yields.hidden fails)
  | inside name listable member examinable further ih =>
      exact Yields.inside hexamine listable member (ih examinable)

theorem yields_failure_iff :
    Yields tree ⟨names, none⟩ ↔ ∃ rest, names = tree.name :: rest ∧
      (tree.faults.examine = true ∧ rest = [] ∨
        tree.faults.examine = false ∧ tree.Fails rest) := by
  constructor
  · intro h
    exact h.fails rfl
  · rintro ⟨rest, rfl, ⟨hexamine, rfl⟩ | ⟨hexamine, hfails⟩⟩
    · exact Yields.hidden hexamine
    · exact yields_of_fails hfails hexamine

/-! ## The trails of a root -/

/-- The trails of a walk, the failure to list the root among them. -/
def trails (root : Entry) : List Trail :=
  if root.faults.list then [⟨[], none⟩] else rootTrails root

theorem listing_eq_map (root : Entry) : listing root = (trails root).map (Trail.found "") := by
  rw [listing_eq_map_trails]
  unfold trails
  split
  · rfl
  · rfl

theorem mem_listing {found : Found} :
    found ∈ listing root ↔
      ∃ names, ⟨names, found.size⟩ ∈ trails root ∧ "/".intercalate names = found.path := by
  rw [listing_eq_map, List.mem_map]
  constructor
  · rintro ⟨trail, htrail, rfl⟩
    exact ⟨trail.names, htrail, String.empty_append.symm⟩
  · rintro ⟨names, htrail, hpath⟩
    refine ⟨_, htrail, ?_⟩
    unfold Trail.found
    rw [String.empty_append, hpath]

/-- In a folder that can be listed, trails are those of its entries. -/
theorem mem_trails_folder {name : String} {faults : Faults} {entries : List Entry} {trail : Trail}
    (hlist : faults.list = false) :
    trail ∈ trails (.folder name faults entries) ↔
      ∃ child ∈ orderedAll entries, Yields child trail := by
  have hlistable : ¬(Entry.folder name faults entries).faults.list = true :=
    Bool.eq_false_iff.mp hlist
  unfold trails rootTrails
  rw [if_neg hlistable, ordered]
  show trail ∈ trailsOfAll (orderedAll entries) ↔ _
  rw [mem_trailsOfAll]
  simp only [mem_trailsOf_iff]

/-- **The trails with a size are the files of the tree.** -/
theorem mem_trails_sized_iff (hfolder : root.isFolder = true) {size : Nat} :
    ⟨names, some size⟩ ∈ trails root ↔ root.Holds names size := by
  rw [← holds_ordered_iff]
  cases root with
  | folder name faults entries =>
      rw [ordered]
      unfold Holds
      simp only [holdsContent_folder_iff]
      cases hlist : faults.list with
      | true => simp [trails, Entry.faults, hlist]
      | false =>
          rw [mem_trails_folder hlist]
          simp only [yields_sized_iff]
          constructor
          · rintro ⟨child, hchild, hexamine, rest, hnames, content, hcontent, hsize⟩
            exact ⟨content, ⟨trivial, child, hchild, hexamine, rest, hnames, hcontent⟩, hsize⟩
          · rintro ⟨content, ⟨-, child, hchild, hexamine, rest, hnames, hcontent⟩, hsize⟩
            exact ⟨child, hchild, hexamine, rest, hnames, content, hcontent, hsize⟩
  | _ => cases hfolder

/-- **The trails without a size are the failures of the tree.** -/
theorem mem_trails_failure_iff (hfolder : root.isFolder = true) :
    ⟨names, none⟩ ∈ trails root ↔ root.Fails names := by
  rw [← fails_ordered_iff]
  cases root with
  | folder name faults entries =>
      rw [ordered, fails_folder_iff]
      cases hlist : faults.list with
      | true => simp [trails, Entry.faults, hlist]
      | false =>
          rw [mem_trails_folder hlist]
          simp only [yields_failure_iff, Bool.false_eq_true, false_and, false_or, true_and]
  | _ => cases hfolder

/-! ## The listing -/

/-- **`Lists root found`** — a listing tells of every file and of every failure below a root, and of
nothing else. -/
structure Lists (root : Entry) (found : List Found) : Prop where
  /-- Paths are strictly increasing, compared segment by segment. -/
  increasing : found.Pairwise fun a b => Text.splitAt '/' a.path < Text.splitAt '/' b.path
  /-- No path is told twice. -/
  once : (found.map (·.path)).Nodup
  /-- A path with a size is the path of a file of that size. -/
  files : ∀ path size, ⟨path, some size⟩ ∈ found ↔
    ∃ names, root.Holds names size ∧ "/".intercalate names = path
  /-- A path without a size is the path of a failure. -/
  failures : ∀ path, ⟨path, none⟩ ∈ found ↔
    ∃ names, root.Fails names ∧ "/".intercalate names = path
  /-- Different places have different paths. -/
  apart : ∀ names names', root.Meets names → root.Meets names' →
    "/".intercalate names = "/".intercalate names' → names = names'

/-- The path of a place tells its names. -/
theorem splitAt_of_meets (hformed : root.WellFormed) (hnamed : root.Named) (h : root.Meets names)
    (hne : names ≠ []) : Text.splitAt '/' ("/".intercalate names) = names :=
  Text.splitAt_intercalate rfl hne fun name hname => (h.isName hformed hnamed name hname).2

/-- The empty path is the path of the root alone. -/
theorem intercalate_ne_empty (hformed : root.WellFormed) (hnamed : root.Named)
    (h : root.Meets names) (hne : names ≠ []) : "/".intercalate names ≠ "" := by
  intro heq
  have hsplit := splitAt_of_meets hformed hnamed h hne
  rw [heq] at hsplit
  have hempty : "" ∈ names := by
    rw [← hsplit]
    exact List.mem_singleton_self _
  exact (h.isName hformed hnamed "" hempty).1 rfl

theorem eq_of_intercalate_eq {names' : List String} (hformed : root.WellFormed)
    (hnamed : root.Named) (h : root.Meets names) (h' : root.Meets names')
    (heq : "/".intercalate names = "/".intercalate names') : names = names' := by
  by_cases hne : names = []
  · by_cases hne' : names' = []
    · rw [hne, hne']
    · rw [hne] at heq
      exact absurd heq.symm (intercalate_ne_empty hformed hnamed h' hne')
  · by_cases hne' : names' = []
    · rw [hne'] at heq
      exact absurd heq (intercalate_ne_empty hformed hnamed h hne)
    · rw [← splitAt_of_meets hformed hnamed h hne, heq, splitAt_of_meets hformed hnamed h' hne']

theorem increasing_listing (hformed : root.WellFormed) :
    (listing root).Pairwise fun a b => Text.splitAt '/' a.path < Text.splitAt '/' b.path := by
  rw [listing_eq_map_trails]
  split
  · exact List.pairwise_singleton _ _
  · rw [List.pairwise_map]
    refine (increasing_rootTrails hformed).imp_of_mem ?_
    intro a b ha hb hlt
    rw [splitAt_rootTrail hformed ha, splitAt_rootTrail hformed hb]
    exact hlt

/-- **A walk lists every file and every failure.** -/
theorem lists_listing (hfolder : root.isFolder = true) (hformed : root.WellFormed)
    (hnamed : root.Named) : Lists root (listing root) where
  increasing := increasing_listing hformed
  once := nodup_listing hformed
  files path size := by simp only [mem_listing, mem_trails_sized_iff hfolder]
  failures path := by simp only [mem_listing, mem_trails_failure_iff hfolder]
  apart names names' h h' := eq_of_intercalate_eq hformed hnamed h h'

/-! ## Sorting out -/

variable {folders extensions : List String} {found : List Found} {cancelled : Bool}

/-- **`Outside folders path`** — no segment of a path, the file name included, names one of the
folders, in any case. -/
def Outside (folders : List String) (path : String) : Prop :=
  ∀ segment ∈ Text.splitAt '/' path, Text.lower segment ∉ folders.map Text.lower

instance (folders : List String) : DecidablePred (Outside folders) :=
  fun _ => inferInstanceAs (Decidable (∀ segment ∈ _, _ ∉ _))

/-- **`IsKept folders found`** — what is found is a file outside the folders. -/
def IsKept (folders : List String) (found : Found) : Prop :=
  found.size.isSome ∧ Outside folders found.path

instance (folders : List String) : DecidablePred (IsKept folders) :=
  fun _ => inferInstanceAs (Decidable (_ ∧ _))

/-- A found file as it is tracked. -/
def Found.tracked (found : Found) : TrackedFile :=
  ⟨found.path, Text.lower (Path.suffix found.path), ((found.size.getD 0 : Nat) : Int), [], []⟩

/-- **`SortsOut folders extensions found result`** — a walk comes to what its listing tells. -/
structure SortsOut (folders extensions : List String) (found : List Found) (result : Result) :
    Prop where
  /-- Every file counts, in an excluded folder or not. -/
  totalFiles : result.totalFiles = found.countP (·.size.isSome)
  totalSize : result.totalSize = (found.filterMap (·.size)).sum
  skipped : result.skipped = found.countP (·.size.isNone)
  folderPaths : result.folderPaths = (found.filter (IsKept folders ·)).map (·.path)
  /-- The tracked files are the kept ones whose suffix is one of the extensions, in any case. -/
  tracked : result.tracked =
    (found.filter fun f => IsKept folders f ∧
      Text.lower (Path.suffix f.path) ∈ extensions.map Text.lower).map Found.tracked
  trackedSublist : (result.tracked.map (·.path)).Sublist result.folderPaths
  analyzedFiles : result.tracked.length ≤ result.totalFiles
  analyzedSize : result.analyzedSize ≤ result.totalSize
  /-- The walk has gone to its end. -/
  whole : result.cancelled = false

/-- A path without empty segments is excluded unless it lies outside. -/
theorem isExcluded_eq_false_iff {path : String} (h : ∀ segment ∈ Text.splitAt '/' path, segment ≠ "") :
    isExcluded folders path = false ↔ Outside folders path := by
  unfold isExcluded Outside
  simp only [List.any_eq_false, Bool.and_eq_true, List.contains_iff_mem, Bool.not_eq_true',
    String.isEmpty_eq_false_iff, not_and]
  exact forall₂_congr fun segment hsegment => forall_prop_of_true (h segment hsegment)

/-- The path of a listed file has no empty segments. -/
theorem segment_ne_empty (hfolder : root.isFolder = true) (hformed : root.WellFormed)
    (hnamed : root.Named) {f : Found} (hf : f ∈ listing root) (hsize : f.size.isSome = true) :
    ∀ segment ∈ Text.splitAt '/' f.path, segment ≠ "" := by
  obtain ⟨size, hsome⟩ := Option.isSome_iff_exists.mp hsize
  obtain ⟨names, htrail, hpath⟩ := mem_listing.mp hf
  rw [hsome, mem_trails_sized_iff hfolder] at htrail
  have hmeets : root.Meets names := Or.inl ⟨size, htrail⟩
  obtain ⟨content, hcontent, -⟩ := htrail
  have hne : names ≠ [] := hcontent.ne_nil hfolder
  rw [← hpath, splitAt_of_meets hformed hnamed hmeets hne]
  exact fun segment hsegment => (hmeets.isName hformed hnamed segment hsegment).1

theorem sizedFiles_eq (found : List Found) :
    sizedFiles found =
      (found.filter (·.size.isSome)).map fun f => (f.path, f.size.getD 0) := by
  unfold sizedFiles
  induction found with
  | nil => rfl
  | cons f rest ih =>
      obtain ⟨path, size⟩ := f
      cases size with
      | none => exact ih
      | some size => exact congrArg ((path, size) :: ·) ih

theorem filterMap_size_eq (found : List Found) :
    found.filterMap (·.size) = (found.filter (·.size.isSome)).map fun f => f.size.getD 0 := by
  have h := congrArg (List.map Prod.snd) (sizedFiles_eq found)
  rw [List.map_map] at h
  refine Eq.trans ?_ h
  unfold sizedFiles
  rw [List.map_filterMap]
  exact List.filterMap_congr fun f _ => by cases f.size <;> rfl

/-- The files outside the folders, among what is found. -/
theorem kept_eq (h : ∀ f ∈ found, f.size.isSome = true →
      ∀ segment ∈ Text.splitAt '/' f.path, segment ≠ "") :
    (sizedFiles found).filter (fun file => !isExcluded folders file.1) =
      (found.filter (IsKept folders ·)).map fun f => (f.path, f.size.getD 0) := by
  rw [sizedFiles_eq, List.filter_map, List.filter_filter]
  congr 1
  apply List.filter_congr
  intro f hf
  rw [Bool.eq_iff_iff, Bool.and_eq_true, decide_eq_true_iff]
  unfold IsKept
  rw [and_comm]
  refine and_congr_right fun hsize => ?_
  simp only [Function.comp, Bool.not_eq_true']
  exact isExcluded_eq_false_iff (h f hf hsize)

/-- Adding up sizes as integers is adding them up. -/
theorem foldl_cast (sizes : List Nat) :
    (sizes.map (Nat.cast : Nat → Int)).foldl (· + ·) 0 = (sizes.sum : Int) := by
  rw [← List.sum_eq_foldl, Nat.cast_list_sum]

/-- **The tracked files are those of the kept ones whose suffix is one of the extensions.** -/
theorem tracked_eq (h : ∀ f ∈ found, f.size.isSome = true →
      ∀ segment ∈ Text.splitAt '/' f.path, segment ≠ "") :
    (classify folders extensions found cancelled).tracked =
      (found.filter fun f => IsKept folders f ∧
        Text.lower (Path.suffix f.path) ∈ extensions.map Text.lower).map Found.tracked := by
  unfold classify
  simp only [kept_eq h, List.map_map]
  rw [List.filter_map, List.filter_filter]
  congr 1
  apply List.filter_congr
  intro f hf
  simp only [Function.comp, trackedFile, TrackedFile.extensionOf, Bool.decide_and,
    List.contains_eq_mem]
  exact Bool.and_comm _ _

/-- **What files come to is told by the listing.** -/
theorem sortsOut_classify (h : ∀ f ∈ found, f.size.isSome = true →
      ∀ segment ∈ Text.splitAt '/' f.path, segment ≠ "") :
    SortsOut folders extensions found (classify folders extensions found false) := by
  have hsub : (found.filter fun f => IsKept folders f ∧
      Text.lower (Path.suffix f.path) ∈ extensions.map Text.lower).Sublist
        (found.filter (IsKept folders ·)) :=
    List.monotone_filter_right found fun f hf => by
      rw [decide_eq_true_iff] at hf ⊢
      exact hf.1
  have hsized : (found.filter (IsKept folders ·)).Sublist (found.filter (·.size.isSome)) :=
    List.monotone_filter_right found fun f hf => (of_decide_eq_true hf).1
  have hfiles : (sizedFiles found).length = (found.filter (·.size.isSome)).length := by
    rw [sizedFiles_eq, List.length_map]
  have htotal : (classify folders extensions found false).totalSize =
      ((found.filter (·.size.isSome)).map fun f => f.size.getD 0).sum := by
    show ((sizedFiles found).map (·.2)).foldl (· + ·) 0 = _
    rw [← List.sum_eq_foldl, sizedFiles_eq, List.map_map]
    rfl
  have hfolders : (classify folders extensions found false).folderPaths =
      (found.filter (IsKept folders ·)).map (·.path) := by
    unfold classify
    simp only [kept_eq h, List.map_map]
    rfl
  constructor
  case totalFiles =>
    rw [List.countP_eq_length_filter]
    exact hfiles
  case totalSize =>
    rw [htotal, ← filterMap_size_eq]
  case skipped => exact List.countP_eq_length_filter.symm
  case folderPaths => exact hfolders
  case tracked => exact tracked_eq h
  case trackedSublist =>
    rw [tracked_eq h, hfolders, List.map_map]
    exact hsub.map _
  case analyzedFiles =>
    rw [tracked_eq h, List.length_map]
    show _ ≤ (sizedFiles found).length
    rw [hfiles]
    exact (hsub.trans hsized).length_le
  case analyzedSize =>
    have hsum := ((hsub.trans hsized).map fun f => f.size.getD 0).sum_le_sum
      fun size _ => Nat.zero_le size
    unfold Result.analyzedSize
    rw [tracked_eq h, List.map_map, htotal]
    refine le_of_eq_of_le ?_ (Int.ofNat_le.mpr hsum)
    rw [← foldl_cast, List.map_map]
    rfl
  case whole => rfl

/-- Sets of names may be lowered before they are used. -/
theorem classify_lowered :
    classify (folders.map Text.lower) (extensions.map Text.lower) found cancelled =
      classify folders extensions found cancelled := by
  have hlowered : ∀ names : List String,
      (names.map Text.lower).map Text.lower = names.map Text.lower := by
    intro names
    rw [List.map_map]
    exact List.map_congr_left fun name _ => Text.lower_lower name
  unfold classify isExcluded
  simp only [hlowered]

/-! ## The whole walk -/

/-- **A walk lists every file and every failure below its root, and sorts out what it lists.** -/
theorem files_exact (folders extensions : List String) (root : Entry)
    (hfolder : root.isFolder = true) (hformed : root.WellFormed) (hnamed : root.Named) :
    Lists root (listing root) ∧
      SortsOut folders extensions (listing root)
        (files folders extensions Signal.never root).1 ∧
      files (folders.map Text.lower) (extensions.map Text.lower) Signal.never root =
        files folders extensions Signal.never root := by
  rw [files_never, files_never, classify_lowered]
  exact ⟨lists_listing hfolder hformed hnamed,
    sortsOut_classify fun f hf hsize => segment_ne_empty hfolder hformed hnamed hf hsize, rfl⟩

/-! ## A tree of every kind of entry -/

/-- A tree with entries of every kind, in which a file, a folder and a special file are at fault. -/
def motleyTree : Entry :=
  .folder "p" Faults.none [
    .folder "a" Faults.none [.file "x.TS" Faults.none (.zeros 3)],
    .file "a.ts" Faults.none (.zeros 5),
    .folder "build" Faults.none [.file "b.ts" Faults.none (.zeros 7)],
    .link "l.ts" Faults.none "a.ts",
    .folder "locked" { Faults.none with list := true } [.file "c.ts" Faults.none (.zeros 9)],
    .file "lost.ts" { Faults.none with examine := true } (.zeros 9),
    .special "pipe" { Faults.none with examine := true }]

theorem wellFormed_motleyTree : motleyTree.WellFormed := by
  unfold motleyTree
  refine Entry.WellFormed.folder _ _ (by decide) (by simp [Entry.name]) ?_
  simp only [List.forall_mem_cons]
  refine ⟨?_, .file _ _ _, ?_, .link _ _ _, ?_, .file _ _ _, .special _ _, by simp⟩
  all_goals
    refine .folder _ _ (by decide) (by simp [Entry.name]) ?_
    simp only [List.forall_mem_singleton]
    exact .file _ _ _

theorem named_motleyTree : motleyTree.Named := by
  unfold motleyTree
  refine Entry.Named.folder _ _ (by simp [Entry.name]) ?_
  simp only [List.forall_mem_cons]
  refine ⟨?_, .file _ _ _, ?_, .link _ _ _, ?_, .file _ _ _, .special _ _, by simp⟩
  all_goals
    refine .folder _ _ (by simp [Entry.name]) ?_
    simp only [List.forall_mem_singleton]
    exact .file _ _ _

/-- Segment by segment, the file in the folder `a` comes before `a.ts`. -/
example : listing motleyTree =
    [⟨"a/x.TS", some 3⟩, ⟨"a.ts", some 5⟩, ⟨"build/b.ts", some 7⟩, ⟨"locked", none⟩,
      ⟨"lost.ts", none⟩, ⟨"pipe", none⟩] := by
  decide +kernel

theorem files_exact_motleyTree :
    Lists motleyTree (listing motleyTree) ∧
      SortsOut ["Build"] [".ts"] (listing motleyTree)
        (files ["Build"] [".ts"] Signal.never motleyTree).1 ∧
      files (["Build"].map Text.lower) ([".ts"].map Text.lower) Signal.never motleyTree =
        files ["Build"] [".ts"] Signal.never motleyTree :=
  files_exact ["Build"] [".ts"] motleyTree rfl wellFormed_motleyTree named_motleyTree

end SourceAtlas.Walk
