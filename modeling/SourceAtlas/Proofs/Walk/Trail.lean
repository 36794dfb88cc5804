/-
# SourceAtlas.Proofs.Walk.Trail — a walk told by names.

What a walk yields is told by a path, which is a list of names joined by slashes.  The list of names
itself is a `Trail`, and a walk is a list of trails (`listing_eq_map_trails`).  Trails come in
strictly increasing order, name by name, so no path is yielded twice; and the names of a trail with
a size lead to a file of that size, which is reached by them.
-/
import SourceAtlas.Proofs.FileSystem.Tree
import SourceAtlas.Proofs.Path.Normal
import SourceAtlas.Walk

namespace SourceAtlas

/-- What a walk yields, by names. -/
structure Trail where
  names : List String
  size : Option Nat

namespace Trail

/-- The trail as it is seen from outside a folder. -/
def within (folder : String) (trail : Trail) : Trail :=
  ⟨folder :: trail.names, trail.size⟩

/-- What the walk yields for the trail. -/
def found (lead : String) (trail : Trail) : Found :=
  ⟨lead ++ "/".intercalate trail.names, trail.size⟩

end Trail

namespace Walk

/-! ## Trails -/

mutual

/-- The trails of an entry. -/
def trailsOf : Entry → List Trail
  | .file name faults content =>
    [⟨[name], if faults.examine then none else some content.size⟩]
  | .folder name faults entries =>
    if faults.examine || faults.list then [⟨[name], none⟩]
    else (trailsOfAll entries).map (Trail.within name)
  | .link name faults _ => if faults.examine then [⟨[name], none⟩] else []
  | .special name faults => if faults.examine then [⟨[name], none⟩] else []

/-- The trails of entries, one after another. -/
def trailsOfAll : List Entry → List Trail
  | [] => []
  | entry :: rest => trailsOf entry ++ trailsOfAll rest

end

theorem trailsOfAll_eq_flatMap (entries : List Entry) :
    trailsOfAll entries = entries.flatMap trailsOf := by
  induction entries with
  | nil => rw [trailsOfAll, List.flatMap_nil]
  | cons entry rest ih => rw [trailsOfAll, ih, List.flatMap_cons]

theorem mem_trailsOfAll {entries : List Entry} {trail : Trail} :
    trail ∈ trailsOfAll entries ↔ ∃ entry ∈ entries, trail ∈ trailsOf entry := by
  rw [trailsOfAll_eq_flatMap, List.mem_flatMap]

/-- **`Yields entry trail`** — what can be found at an entry: a failure to examine or to list it,
the file that it is, or what is found inside it. -/
inductive Yields : Entry → Trail → Prop
  | hidden {entry : Entry} (fails : entry.faults.examine = true) :
      Yields entry ⟨[entry.name], none⟩
  | unlisted {name : String} {faults : Faults} {entries : List Entry}
      (examinable : faults.examine = false) (fails : faults.list = true) :
      Yields (.folder name faults entries) ⟨[name], none⟩
  | file {name : String} {faults : Faults} {content : Content}
      (examinable : faults.examine = false) :
      Yields (.file name faults content) ⟨[name], some content.size⟩
  | inside {name : String} {faults : Faults} {entries : List Entry} {child : Entry} {trail : Trail}
      (examinable : faults.examine = false) (listable : faults.list = false)
      (member : child ∈ entries) (further : Yields child trail) :
      Yields (.folder name faults entries) (trail.within name)

mutual

theorem yields_of_mem_trailsOf :
    ∀ {entry : Entry} {trail : Trail}, trail ∈ trailsOf entry → Yields entry trail
  | .file name faults content, trail, h => by
      rw [trailsOf] at h
      rw [List.mem_singleton.mp h]
      cases hexamine : faults.examine with
      | true => exact @Yields.hidden (.file name faults content) hexamine
      | false => exact Yields.file hexamine
  | .folder name faults entries, trail, h => by
      rw [trailsOf] at h
      cases hexamine : faults.examine with
      | true =>
          rw [hexamine, Bool.true_or, if_pos rfl] at h
          rw [List.mem_singleton.mp h]
          exact @Yields.hidden (.folder name faults entries) hexamine
      | false =>
          cases hlist : faults.list with
          | true =>
              rw [hexamine, hlist, Bool.or_true, if_pos rfl] at h
              rw [List.mem_singleton.mp h]
              exact Yields.unlisted hexamine hlist
          | false =>
              rw [hexamine, hlist, Bool.or_false, if_neg Bool.false_ne_true] at h
              obtain ⟨below, hbelow, rfl⟩ := List.mem_map.mp h
              obtain ⟨child, hchild, hyields⟩ := exists_yields_of_mem_trailsOfAll hbelow
              exact Yields.inside hexamine hlist hchild hyields
  | .link name faults target, trail, h => by
      rw [trailsOf] at h
      split at h
      · rw [List.mem_singleton.mp h]
        exact @Yields.hidden (.link name faults target) ‹_›
      · cases h
  | .special name faults, trail, h => by
      rw [trailsOf] at h
      split at h
      · rw [List.mem_singleton.mp h]
        exact @Yields.hidden (.special name faults) ‹_›
      · cases h

theorem exists_yields_of_mem_trailsOfAll :
    ∀ {entries : List Entry} {trail : Trail}, trail ∈ trailsOfAll entries →
      ∃ child ∈ entries, Yields child trail
  | [], trail, h => by
      rw [trailsOfAll] at h
      cases h
  | entry :: rest, trail, h => by
      rw [trailsOfAll] at h
      rcases List.mem_append.mp h with h | h
      · exact ⟨entry, List.mem_cons_self, yields_of_mem_trailsOf h⟩
      · obtain ⟨child, hchild, hyields⟩ := exists_yields_of_mem_trailsOfAll h
        exact ⟨child, List.mem_cons_of_mem entry hchild, hyields⟩

end

/-- An entry that cannot be examined has one trail, which tells of the failure. -/
theorem trailsOf_hidden {entry : Entry} (h : entry.faults.examine = true) :
    trailsOf entry = [⟨[entry.name], none⟩] := by
  cases entry with
  | _ =>
      simp only [Entry.faults] at h
      simp [trailsOf, Entry.name, h]

theorem mem_trailsOf_of_yields {entry : Entry} {trail : Trail} (h : Yields entry trail) :
    trail ∈ trailsOf entry := by
  induction h with
  | hidden fails =>
      rw [trailsOf_hidden fails]
      exact List.mem_singleton_self _
  | unlisted examinable fails =>
      rw [trailsOf, examinable, fails]
      exact List.mem_singleton_self _
  | file examinable =>
      rw [trailsOf, examinable]
      exact List.mem_singleton_self _
  | inside examinable listable member further ih =>
      rw [trailsOf, examinable, listable]
      exact List.mem_map_of_mem (mem_trailsOfAll.mpr ⟨_, member, ih⟩)

/-- **The trails of an entry are what can be found at it.** -/
theorem mem_trailsOf_iff {entry : Entry} {trail : Trail} :
    trail ∈ trailsOf entry ↔ Yields entry trail :=
  ⟨yields_of_mem_trailsOf, mem_trailsOf_of_yields⟩

/-- The trails of an entry begin with its name. -/
theorem exists_names_of_mem {entry : Entry} {trail : Trail} (h : trail ∈ trailsOf entry) :
    ∃ rest, trail.names = entry.name :: rest := by
  cases mem_trailsOf_iff.mp h with
  | inside examinable listable member further => exact ⟨_, rfl⟩
  | _ => exact ⟨[], rfl⟩

theorem names_ne_nil {entries : List Entry} {trail : Trail} (h : trail ∈ trailsOfAll entries) :
    trail.names ≠ [] := by
  obtain ⟨entry, -, hmem⟩ := mem_trailsOfAll.mp h
  obtain ⟨rest, hnames⟩ := exists_names_of_mem hmem
  rw [hnames]
  exact List.cons_ne_nil _ _

mutual

theorem listEntry_eq_map_trails (lead : String) :
    ∀ entry : Entry, listEntry lead entry = (trailsOf entry).map (Trail.found lead)
  | .file name faults content => by
      rw [listEntry, trailsOf, List.map_singleton, Trail.found, String.intercalate_singleton]
  | .folder name faults entries => by
      rw [listEntry, trailsOf]
      split
      · rw [List.map_singleton, Trail.found, String.intercalate_singleton]
      · rw [listAll_eq_map_trails (lead ++ name ++ "/") entries, List.map_map]
        apply List.map_congr_left
        intro trail htrail
        -- the lead of the inner walk is the outer lead, the name and a slash
        show Found.mk _ trail.size = Found.mk _ trail.size
        rw [Trail.within, String.intercalate_cons_of_ne_nil (names_ne_nil htrail)]
        simp only [String.append_assoc]
  | .link name faults target => by
      rw [listEntry, trailsOf]
      split
      · rw [List.map_singleton, Trail.found, String.intercalate_singleton]
      · rfl
  | .special name faults => by
      rw [listEntry, trailsOf]
      split
      · rw [List.map_singleton, Trail.found, String.intercalate_singleton]
      · rfl

theorem listAll_eq_map_trails (lead : String) :
    ∀ entries : List Entry, listAll lead entries = (trailsOfAll entries).map (Trail.found lead)
  | [] => by rw [listAll, trailsOfAll, List.map_nil]
  | entry :: rest => by
      rw [listAll, trailsOfAll, listEntry_eq_map_trails lead entry, listAll_eq_map_trails lead rest,
        List.map_append]

end

/-! ## Order -/

/-- In order, entries of distinct names come by strictly increasing names. -/
theorem increasing_orderedAll {entries : List Entry} (distinct : (entries.map Entry.name).Nodup) :
    (Entry.orderedAll entries).Pairwise (·.name < ·.name) := by
  have hdistinct : (Entry.orderedAll entries).Pairwise (·.name ≠ ·.name) := by
    have hname : Entry.name ∘ Entry.ordered = Entry.name := funext Entry.name_ordered
    rw [← List.pairwise_map]
    refine (((Entry.perm_orderedAll entries).map Entry.name).nodup_iff).mpr ?_
    rw [List.map_map, hname]
    exact distinct
  refine ((Entry.inOrder_orderedAll entries).and hdistinct).imp ?_
  rintro a b ⟨hle, hne⟩
  by_contra hnot
  exact hne (String.le_antisymm hle (String.not_lt.mp hnot))

/-- Trails increase through an ordered folder if they do through each of its entries. -/
theorem increasing_trailsOfAll {entries : List Entry} (distinct : (entries.map Entry.name).Nodup)
    (hinner : ∀ entry ∈ entries, (trailsOf entry.ordered).Pairwise (·.names < ·.names)) :
    (trailsOfAll (Entry.orderedAll entries)).Pairwise (·.names < ·.names) := by
  rw [trailsOfAll_eq_flatMap, List.pairwise_flatMap]
  refine ⟨?_, (increasing_orderedAll distinct).imp ?_⟩
  · intro x hx
    obtain ⟨entry, hentry, rfl⟩ := Entry.mem_orderedAll.mp hx
    exact hinner entry hentry
  · intro a b hlt x hx y hy
    obtain ⟨xs, hxs⟩ := exists_names_of_mem hx
    obtain ⟨ys, hys⟩ := exists_names_of_mem hy
    rw [hxs, hys, List.cons_lt_cons_iff]
    exact Or.inl hlt

/-- **The trails of an ordered tree are strictly increasing**, name by name. -/
theorem increasing_trailsOf {tree : Entry} (h : tree.WellFormed) :
    (trailsOf tree.ordered).Pairwise (·.names < ·.names) := by
  induction h with
  | file name faults content =>
      rw [Entry.ordered, trailsOf]
      exact List.pairwise_singleton _ _
  | link name faults target =>
      rw [Entry.ordered, trailsOf]
      split
      · exact List.pairwise_singleton _ _
      · exact List.Pairwise.nil
  | special name faults =>
      rw [Entry.ordered, trailsOf]
      split
      · exact List.pairwise_singleton _ _
      · exact List.Pairwise.nil
  | folder name faults distinct named inner ih =>
      rw [Entry.ordered, trailsOf]
      split
      · exact List.pairwise_singleton _ _
      · rw [List.pairwise_map]
        refine (increasing_trailsOfAll distinct ih).imp ?_
        intro a b hlt
        show name :: a.names < name :: b.names
        rw [List.cons_lt_cons_iff]
        exact Or.inr ⟨rfl, hlt⟩

/-! ## Paths -/

/-- The names of a trail of a well-formed tree hold no slash. -/
theorem not_mem_names {tree : Entry} (hformed : tree.WellFormed) (hname : '/' ∉ tree.name.toList)
    {trail : Trail} (h : Yields tree trail) : ∀ name ∈ trail.names, '/' ∉ name.toList := by
  induction h with
  | inside examinable listable member further ih =>
      cases hformed with
      | folder _ _ distinct named inner =>
          intro name h
          rcases List.mem_cons.mp h with rfl | h
          · exact hname
          · exact ih (inner _ member) (named _ member) name h
  | _ =>
      intro name h
      rw [List.mem_singleton.mp h]
      exact hname

/-! ## What trails lead to -/

/-- **A trail with a size leads to a file of that size.** -/
theorem Yields.exists_reaches {tree : Entry} {trail : Trail} (h : Yields tree trail) {size : Nat}
    (hsize : trail.size = some size) :
    tree.faults.examine = false ∧ ∃ names name faults content,
      trail.names = tree.name :: names ∧ tree.Reaches names (.file name faults content) ∧
        content.size = size := by
  induction h with
  | hidden fails => cases hsize
  | unlisted examinable fails => cases hsize
  | @file name faults content examinable =>
      exact ⟨examinable, [], name, faults, content, rfl, Entry.Reaches.here _,
        Option.some.inj hsize⟩
  | @inside name faults entries child trail examinable listable member further ih =>
      obtain ⟨hexamine, names, leaf, faults', content, hnames, hreaches, hcontent⟩ := ih hsize
      exact ⟨examinable, child.name :: names, leaf, faults', content,
        congrArg (List.cons name) hnames,
        Entry.Reaches.inside name listable member hexamine hreaches, hcontent⟩

/-! ## The whole listing -/

variable {root : Entry}

/-- The trails below a root. -/
def rootTrails (root : Entry) : List Trail :=
  trailsOfAll root.ordered.entries

/-- **The listing of a root tells its trails by their paths.** -/
theorem listing_eq_map_trails (root : Entry) :
    listing root =
      if root.faults.list then [⟨"", none⟩] else (rootTrails root).map (Trail.found "") := by
  unfold listing rootTrails
  rw [listAll_eq_map_trails]

theorem increasing_rootTrails (h : root.WellFormed) :
    (rootTrails root).Pairwise (·.names < ·.names) := by
  unfold rootTrails
  cases h with
  | folder name faults distinct named inner =>
      rw [Entry.ordered]
      exact increasing_trailsOfAll distinct fun entry hentry =>
        increasing_trailsOf (inner entry hentry)
  | _ =>
      rw [Entry.ordered]
      exact List.Pairwise.nil

/-- The path of a trail below a root falls into the names of the trail. -/
theorem splitAt_rootTrail (h : root.WellFormed) {trail : Trail} (htrail : trail ∈ rootTrails root) :
    Text.splitAt '/' (trail.found "").path = trail.names := by
  obtain ⟨child, hchild, hyields⟩ := exists_yields_of_mem_trailsOfAll htrail
  have hnames : ∀ name ∈ trail.names, '/' ∉ name.toList := by
    have hordered := h.ordered
    generalize root.ordered = tree at hordered hchild
    cases hordered with
    | folder name faults distinct named inner =>
        exact not_mem_names (inner child hchild) (named child hchild) hyields
    | _ => cases hchild
  show Text.splitAt '/' ("" ++ "/".intercalate trail.names) = trail.names
  rw [String.empty_append]
  exact Text.splitAt_intercalate rfl (names_ne_nil htrail) hnames

/-- **No path is listed twice.** -/
theorem nodup_listing (h : root.WellFormed) : ((listing root).map (·.path)).Nodup := by
  rw [listing_eq_map_trails]
  split
  · exact List.nodup_singleton _
  · -- paths that fall into different names differ
    refine List.Nodup.of_map (Text.splitAt '/') ?_
    have hnames : (((rootTrails root).map (Trail.found "")).map (·.path)).map (Text.splitAt '/') =
        (rootTrails root).map (·.names) := by
      rw [List.map_map, List.map_map]
      exact List.map_congr_left fun trail htrail => splitAt_rootTrail h htrail
    rw [hnames]
    refine List.pairwise_map.mpr ((increasing_rootTrails h).imp fun {a b} hlt heq => ?_)
    rw [heq] at hlt
    exact List.lt_irrefl _ hlt

/-- **A listed path with a size leads to a file of that size.** -/
theorem exists_reaches_of_mem_listing (h : root.WellFormed) {found : Found}
    (hfound : found ∈ listing root) {size : Nat} (hsize : found.size = some size) :
    ∃ name faults content,
      root.Reaches (Text.splitAt '/' found.path) (.file name faults content) ∧
        content.size = size := by
  rw [listing_eq_map_trails] at hfound
  split at hfound
  · rw [List.mem_singleton.mp hfound] at hsize
    cases hsize
  · rename_i hlistable
    obtain ⟨trail, htrail, rfl⟩ := List.mem_map.mp hfound
    rw [splitAt_rootTrail h htrail]
    obtain ⟨child, hchild, hyields⟩ := exists_yields_of_mem_trailsOfAll htrail
    obtain ⟨hexamine, names, name, faults, content, hnames, hreaches, hcontent⟩ :=
      hyields.exists_reaches hsize
    have hordered : root.ordered.Reaches trail.names (.file name faults content) := by
      have hlist : root.ordered.faults.list = false := by
        rw [Entry.faults_ordered]
        exact Bool.eq_false_iff.mpr hlistable
      rw [hnames]
      generalize root.ordered = tree at hchild hlist
      cases tree with
      | folder folderName folderFaults entries =>
          exact Entry.Reaches.inside folderName hlist hchild hexamine hreaches
      | _ => cases hchild
    obtain ⟨entry, hentry, hleaf⟩ := Entry.exists_reaches_of_ordered hordered
    cases entry with
    | file name' faults' content' =>
        rw [Entry.ordered] at hleaf
        cases hleaf
        exact ⟨name, faults, content, hentry, hcontent⟩
    | _ =>
        rw [Entry.ordered] at hleaf
        cases hleaf

end Walk

end SourceAtlas
