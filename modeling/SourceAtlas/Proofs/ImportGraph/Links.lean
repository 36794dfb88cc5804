/-
# SourceAtlas.Proofs.ImportGraph.Links — what an import graph holds.

The graph of a list of files is built by two nested folds.  Here the folds are read off: an edge is
in the graph exactly if some specifier of its source resolves to its target and the two differ
(`mem_edges_ofFiles`), and a missing import is in it exactly if its specifier points into the tree
and resolves to nothing (`mem_missing_ofFiles`).  Nothing depends on the order in which files and
specifiers came.

The adjacency of a node is then exact and in increasing order, on both sides of an edge
(`mem_importsOf`, `importsOf_increasing` and their twins for importers).
-/
import SourceAtlas.Proofs.Keyed
import SourceAtlas.Report.Assemble

namespace SourceAtlas

/-! ## Folds that only add -/

/-- If every step of a fold adds what its element brings and keeps the rest, the whole fold adds
what some element brings. -/
theorem foldl_holds_iff {σ α : Type} {step : σ → α → σ} (holds : σ → Prop) {brings : α → Prop}
    (hstep : ∀ s a, holds (step s a) ↔ holds s ∨ brings a) (l : List α) (s : σ) :
    holds (l.foldl step s) ↔ holds s ∨ ∃ a ∈ l, brings a := by
  induction l generalizing s with
  | nil => simp
  | cons a rest ih =>
      rw [List.foldl_cons, ih, hstep]
      constructor
      · rintro ((h | h) | ⟨b, hb, h⟩)
        · exact Or.inl h
        · exact Or.inr ⟨a, List.mem_cons_self, h⟩
        · exact Or.inr ⟨b, List.mem_cons_of_mem a hb, h⟩
      · rintro (h | ⟨b, hb, h⟩)
        · exact Or.inl (Or.inl h)
        · rcases List.mem_cons.mp hb with rfl | hb
          · exact Or.inl (Or.inr h)
          · exact Or.inr ⟨b, hb, h⟩

/-! ## The index -/

theorem lookup_map_self (key : String → String) (k : String) (files : List String) :
    (files.map fun file => (key file, file)).lookup k = files.find? fun file => key file == k := by
  induction files with
  | nil => rfl
  | cons file rest ih =>
      rw [List.map_cons, List.lookup_cons, List.find?_cons, ih, BEq.comm]

namespace PathIndex

/-- The entries of an index of files, the latest first. -/
theorem entries_ofFiles (root : String) (paths : List String) :
    (ofFiles root paths).entries =
      (paths.map fun path => (Path.key (Path.join root path), path)).reverse := by
  suffices h : ∀ index : PathIndex,
      (paths.foldl (fun i path => i.add (Path.key (Path.join root path)) path) index).entries =
        (paths.map fun path => (Path.key (Path.join root path), path)).reverse ++ index.entries by
    simpa [ofFiles, empty] using h empty
  induction paths with
  | nil => intro index; rfl
  | cons path rest ih =>
      intro index
      rw [List.foldl_cons, ih]
      simp [add]

/-- An index of files finds nothing but those files, each under its own key. -/
theorem find?_ofFiles_mem {root key path : String} {paths : List String}
    (h : (ofFiles root paths).find? key = some path) :
    path ∈ paths ∧ Path.key (Path.join root path) = key := by
  unfold find? at h
  rw [entries_ofFiles] at h
  obtain ⟨before, after, happ, -⟩ := List.lookup_eq_some_iff.mp h
  have hmem : (key, path) ∈ (paths.map fun p => (Path.key (Path.join root p), p)).reverse := by
    rw [happ]
    simp
  rw [List.mem_reverse, List.mem_map] at hmem
  obtain ⟨p, hp, heq⟩ := hmem
  obtain ⟨hkey, rfl⟩ := Prod.mk.inj heq
  exact ⟨hp, hkey⟩

/-- **An index of files finds the last of them that has the key.** -/
theorem find?_ofFiles_last (root key : String) (files : List String) :
    (ofFiles root files).find? key =
      files.reverse.find? fun file => Path.key (Path.join root file) == key := by
  unfold find?
  rw [entries_ofFiles, ← List.map_reverse]
  exact lookup_map_self (fun file => Path.key (Path.join root file)) key files.reverse

/-- Where the keys of the files are distinct, each file is found under its own. -/
theorem find?_ofFiles_of_nodup {root path : String} {paths : List String}
    (hnodup : (paths.map fun p => Path.key (Path.join root p)).Nodup) (hpath : path ∈ paths) :
    (ofFiles root paths).find? (Path.key (Path.join root path)) = some path := by
  unfold find?
  rw [entries_ofFiles]
  apply lookup_of_nodup
  · rw [List.map_reverse, List.map_map, List.nodup_reverse]
    exact hnodup
  · rw [List.mem_reverse]
    exact List.mem_map.mpr ⟨path, hpath, rfl⟩

/-- An index of files with distinct keys finds the same for every order of the files. -/
theorem find?_ofFiles_perm {root : String} {paths paths' : List String} (hperm : paths.Perm paths')
    (hnodup : (paths.map fun p => Path.key (Path.join root p)).Nodup) (key : String) :
    (ofFiles root paths).find? key = (ofFiles root paths').find? key := by
  unfold find?
  rw [entries_ofFiles, entries_ofFiles]
  refine lookup_perm ?_ ?_ key
  · exact (List.reverse_perm _).trans ((hperm.map _).trans (List.reverse_perm _).symm)
  · rw [List.map_reverse, List.map_map, List.nodup_reverse]
    exact hnodup

end PathIndex

/-- Resolution depends on what the index finds, and not on how it is stored. -/
theorem resolve?_congr {index index' : PathIndex} {root importer specifier : String}
    {language : Language} (h : ∀ key, index.find? key = index'.find? key) :
    resolve? index root importer language specifier =
      resolve? index' root importer language specifier := by
  unfold resolve?
  simp only [h]

/-- What a specifier resolves to is in the index. -/
theorem exists_find?_of_resolve? {index : PathIndex} {root importer specifier target : String}
    {language : Language} (h : resolve? index root importer language specifier = some target) :
    ∃ key, index.find? key = some target := by
  obtain ⟨candidate, -, hfind⟩ := List.exists_of_findSome?_eq_some h
  exact ⟨_, hfind⟩

/-- In a set that is ordered by two keys, elements that agree in the first are in order of the
second. -/
theorem OrderedSet.increasing_second {α β γ : Type} [StrictLinear α] [StrictLinear β]
    [StrictLinear γ] [BEq β] [LawfulBEq β] {first : α → β} {second : α → γ} (s : OrderedSet α)
    (hlt : ∀ a b, a < b → first a < first b ∨ first a = first b ∧ second a < second b) (key : β) :
    ((s.toList.filter (first · == key)).map second).Pairwise (· < ·) := by
  rw [List.pairwise_map]
  refine List.Pairwise.imp_of_mem ?_ (s.increasing.filter _)
  intro a b ha hb hab
  have hfirst : first a = first b := by
    rw [eq_of_beq (List.mem_filter.mp ha).2, eq_of_beq (List.mem_filter.mp hb).2]
  rcases hlt a b hab with h | ⟨-, h⟩
  · exact absurd (hfirst ▸ h) (StrictLinear.lt_irrefl _)
  · exact h

namespace ImportGraph

variable {index : PathIndex} {root : String} {files : List TrackedFile}
  {specifiers : SpecifierMap}

/-! ## What a specifier adds -/

/-- **`Brings index root file specifier edge`** — the specifier of a file resolves to another file,
and the edge tells of it. -/
def Brings (index : PathIndex) (root : String) (file : TrackedFile) (specifier : String)
    (edge : Edge) : Prop :=
  resolve? index root (Path.join root file.path) file.language specifier = some edge.target ∧
    edge.source = file.path ∧ file.path ≠ edge.target

/-- **`Lacks index root file specifier missing`** — the specifier of a file points into the tree and
resolves to nothing. -/
def Lacks (index : PathIndex) (root : String) (file : TrackedFile) (specifier : String)
    (missing : Missing) : Prop :=
  resolve? index root (Path.join root file.path) file.language specifier = none ∧
    isLocal file.language specifier = true ∧ missing = ⟨file.path, specifier⟩

theorem mem_edges_addEdge {graph : ImportGraph} {source target : String} {edge : Edge} :
    edge ∈ (graph.addEdge source target).edges ↔
      edge ∈ graph.edges ∨ (source ≠ target ∧ edge = ⟨source, target⟩) := by
  unfold addEdge
  split
  · rename_i heq
    simp [heq]
  · rename_i hne
    rw [OrderedSet.mem_insert]
    constructor
    · rintro (h | h)
      · exact Or.inr ⟨hne, h⟩
      · exact Or.inl h
    · rintro (h | ⟨-, h⟩)
      · exact Or.inr h
      · exact Or.inl h

theorem missing_addEdge {graph : ImportGraph} {source target : String} :
    (graph.addEdge source target).missing = graph.missing := by
  unfold addEdge
  split
  · rfl
  · rfl

theorem mem_edges_addSpecifier {file : TrackedFile} {edge : Edge} (graph : ImportGraph)
    (specifier : String) :
    edge ∈ (addSpecifier index root file graph specifier).edges ↔
      edge ∈ graph.edges ∨ Brings index root file specifier edge := by
  unfold addSpecifier Brings
  split
  · rename_i target hresolve
    rw [mem_edges_addEdge, hresolve]
    constructor
    · rintro (h | ⟨hne, rfl⟩)
      · exact Or.inl h
      · exact Or.inr ⟨rfl, rfl, hne⟩
    · rintro (h | ⟨htarget, hsource, hne⟩)
      · exact Or.inl h
      · cases htarget
        cases edge
        cases hsource
        exact Or.inr ⟨hne, rfl⟩
  · rename_i hresolve
    have hkeep : (if isLocal file.language specifier then graph.addMissing file.path specifier
        else graph).edges = graph.edges := by
      split
      · rfl
      · rfl
    rw [hkeep, hresolve]
    simp

theorem mem_missing_addSpecifier {file : TrackedFile} {missing : Missing} (graph : ImportGraph)
    (specifier : String) :
    missing ∈ (addSpecifier index root file graph specifier).missing ↔
      missing ∈ graph.missing ∨ Lacks index root file specifier missing := by
  unfold addSpecifier Lacks
  split
  · rename_i target hresolve
    rw [missing_addEdge, hresolve]
    simp
  · rename_i hresolve
    rw [hresolve]
    split
    · rename_i hlocal
      show missing ∈ graph.missing.insert _ ↔ _
      rw [OrderedSet.mem_insert, hlocal]
      simp [or_comm]
    · rename_i hlocal
      simp [hlocal]

/-! ## What the whole graph holds -/

theorem edges_foldl_addNode (files : List TrackedFile) (graph : ImportGraph) :
    (files.foldl (fun g file => g.addNode file.path) graph).edges = graph.edges ∧
      (files.foldl (fun g file => g.addNode file.path) graph).missing = graph.missing := by
  induction files generalizing graph with
  | nil => exact ⟨rfl, rfl⟩
  | cons file rest ih =>
      rw [List.foldl_cons]
      exact ih (graph.addNode file.path)

/-- **An edge is in the graph exactly if a specifier of its source resolves to its target** and the
two differ. -/
theorem mem_edges_ofFiles {edge : Edge} :
    edge ∈ (ofFiles root files specifiers).edges ↔
      ∃ file ∈ files, ∃ specifier ∈ specifiers.of file.path,
        Brings (PathIndex.ofFiles root (files.map (·.path))) root file specifier edge := by
  unfold ofFiles
  simp only
  -- the outer fold adds what the inner folds add, and the nodes alone hold no edge
  rw [foldl_holds_iff (fun g : ImportGraph => edge ∈ g.edges)
    (fun graph file => foldl_holds_iff (fun g : ImportGraph => edge ∈ g.edges)
      mem_edges_addSpecifier (specifiers.of file.path).toList graph)]
  rw [(edges_foldl_addNode files empty).1]
  simp [empty, OrderedSet.empty]

/-- **A missing import is in the graph exactly if its specifier points into the tree and resolves to
nothing.** -/
theorem mem_missing_ofFiles {missing : Missing} :
    missing ∈ (ofFiles root files specifiers).missing ↔
      ∃ file ∈ files, ∃ specifier ∈ specifiers.of file.path,
        Lacks (PathIndex.ofFiles root (files.map (·.path))) root file specifier missing := by
  unfold ofFiles
  simp only
  rw [foldl_holds_iff (fun g : ImportGraph => missing ∈ g.missing)
    (fun graph file => foldl_holds_iff (fun g : ImportGraph => missing ∈ g.missing)
      mem_missing_addSpecifier (specifiers.of file.path).toList graph)]
  rw [(edges_foldl_addNode files empty).2]
  simp [empty, OrderedSet.empty]

/-- Both ends of an edge are paths of files, and they differ. -/
theorem ends_of_mem_edges {edge : Edge} (h : edge ∈ (ofFiles root files specifiers).edges) :
    edge.source ∈ files.map (·.path) ∧ edge.target ∈ files.map (·.path) ∧
      edge.source ≠ edge.target := by
  obtain ⟨file, hfile, specifier, -, hresolve, hsource, hne⟩ := mem_edges_ofFiles.mp h
  obtain ⟨key, hfind⟩ := exists_find?_of_resolve? hresolve
  refine ⟨?_, (PathIndex.find?_ofFiles_mem hfind).1, ?_⟩
  · rw [hsource]
    exact List.mem_map_of_mem hfile
  · rw [hsource]
    exact hne

/-- The graph of files depends on what the files import and not on how that is stored. -/
theorem ofFiles_congr (root : String) {files : List TrackedFile}
    {specifiers specifiers' : SpecifierMap}
    (h : ∀ file ∈ files, specifiers.of file.path = specifiers'.of file.path) :
    ofFiles root files specifiers = ofFiles root files specifiers' := by
  unfold ofFiles
  exact List.foldl_ext _ _ _ fun graph file hfile => by rw [h file hfile]

/-- The graph of files with distinct keys is the same for every order of the files. -/
theorem ofFiles_perm {files files' : List TrackedFile} (hperm : files.Perm files')
    (keys : (files.map fun file => Path.key (Path.join root file.path)).Nodup) :
    (ofFiles root files specifiers).edges = (ofFiles root files' specifiers).edges ∧
      (ofFiles root files specifiers).missing = (ofFiles root files' specifiers).missing := by
  have hfind : ∀ key, (PathIndex.ofFiles root (files.map (·.path))).find? key =
      (PathIndex.ofFiles root (files'.map (·.path))).find? key := by
    refine PathIndex.find?_ofFiles_perm (hperm.map _) ?_
    rw [List.map_map]
    exact keys
  constructor
  · refine OrderedSet.ext_mem fun edge => ?_
    rw [mem_edges_ofFiles, mem_edges_ofFiles]
    unfold Brings
    simp only [resolve?_congr hfind, hperm.mem_iff]
  · refine OrderedSet.ext_mem fun missing => ?_
    rw [mem_missing_ofFiles, mem_missing_ofFiles]
    unfold Lacks
    simp only [resolve?_congr hfind, hperm.mem_iff]

/-! ## Adjacency -/

theorem mem_importsOf {graph : ImportGraph} {source target : String} :
    target ∈ graph.importsOf source ↔ ⟨source, target⟩ ∈ graph.edges.toList := by
  unfold importsOf
  rw [List.mem_map]
  constructor
  · rintro ⟨edge, hedge, rfl⟩
    obtain ⟨hmem, heq⟩ := List.mem_filter.mp hedge
    cases edge
    cases eq_of_beq heq
    exact hmem
  · intro h
    exact ⟨_, List.mem_filter.mpr ⟨h, beq_self_eq_true _⟩, rfl⟩

theorem mem_importersOf {graph : ImportGraph} {source target : String} :
    source ∈ graph.importersOf target ↔ ⟨source, target⟩ ∈ graph.edges.toList := by
  unfold importersOf
  rw [List.mem_map]
  constructor
  · rintro ⟨edge, hedge, rfl⟩
    obtain ⟨hmem, heq⟩ := List.mem_filter.mp hedge
    cases edge
    cases eq_of_beq heq
    exact hmem
  · intro h
    exact ⟨_, List.mem_filter.mpr ⟨h, beq_self_eq_true _⟩, rfl⟩

theorem importsOf_increasing (graph : ImportGraph) (source : String) :
    (graph.importsOf source).Pairwise (· < ·) :=
  graph.edges.increasing_second (fun _ _ h => h) source

theorem importersOf_increasing (graph : ImportGraph) (target : String) :
    (graph.importersOf target).Pairwise (· < ·) := by
  unfold importersOf
  rw [List.pairwise_map]
  refine List.Pairwise.imp_of_mem ?_ (graph.edges.increasing.filter _)
  intro a b ha hb hlt
  have htarget : a.target = b.target := by
    rw [eq_of_beq (List.mem_filter.mp ha).2, eq_of_beq (List.mem_filter.mp hb).2]
  rcases hlt with h | ⟨-, h⟩
  · exact h
  · exact absurd (htarget ▸ h) (StrictLinear.lt_irrefl _)

end ImportGraph

end SourceAtlas
