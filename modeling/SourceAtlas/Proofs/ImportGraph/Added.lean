/-
# SourceAtlas.Proofs.ImportGraph.Added — one file more.

A file that is added may come before the target of an import: it answers to an earlier candidate, or
to a candidate under the root where the old target lay beside the importer.  It can do nothing else.
Over an index with one more key a specifier resolves as before or to the added file
(`resolve?_add`).  In the graph no edge between the other files is new, an edge that is gone leads
to the added file, and nothing is missing that was not missing (`ofFiles_added`).
-/
import SourceAtlas.Proofs.ImportGraph.SelfImport

namespace SourceAtlas

/-! ## Resolution over a larger index -/

/-- A first match along candidates is the old one or the new value, if each candidate finds what it
found, or nothing before and the new value now. -/
theorem findSome?_eq_or {α β : Type} {old new : α → Option β} {value : β}
    (h : ∀ a, new a = old a ∨ new a = some value) (l : List α) :
    l.findSome? new = l.findSome? old ∨ l.findSome? new = some value := by
  induction l with
  | nil => exact Or.inl rfl
  | cons a rest ih =>
      rcases h a with hsame | hvalue
      · rw [List.findSome?_cons, List.findSome?_cons, hsame]
        cases old a with
        | none => exact ih
        | some found => exact Or.inl rfl
      · right
        rw [List.findSome?_cons, hvalue]

namespace PathIndex

theorem find?_add (index : PathIndex) (key path other : String) :
    (index.add key path).find? other = if other = key then some path else index.find? other := by
  unfold find? add
  rw [List.lookup_cons]
  split
  · rename_i heq
    rw [if_pos (eq_of_beq heq)]
  · rename_i hne
    rw [if_neg (by simpa using hne)]

/-- The index of files with one more, which may stand anywhere among them, is the index of the files
with one more entry. -/
theorem find?_ofFiles_added {root path : String} {paths paths' : List String}
    (hperm : paths'.Perm (path :: paths))
    (hnodup : (paths'.map fun p => Path.key (Path.join root p)).Nodup) (key : String) :
    (ofFiles root paths').find? key =
      ((ofFiles root paths).add (Path.key (Path.join root path)) path).find? key := by
  have hlast : paths'.Perm (paths ++ [path]) := hperm.trans (List.perm_append_singleton _ _).symm
  rw [find?_ofFiles_perm hlast hnodup]
  unfold ofFiles
  rw [List.foldl_append]
  rfl

end PathIndex

/-- **Over an index with one more file a specifier resolves as before or to that file.** -/
theorem resolve?_add (index : PathIndex) (key path root importer : String) (language : Language)
    (specifier : String) :
    resolve? (index.add key path) root importer language specifier =
        resolve? index root importer language specifier ∨
      resolve? (index.add key path) root importer language specifier = some path := by
  unfold resolve?
  refine findSome?_eq_or (fun candidate => ?_) _
  rw [PathIndex.find?_add]
  split
  · exact Or.inr rfl
  · exact Or.inl rfl

namespace ImportGraph

/-! ## The graph with one more file -/

/-- **`Shadowed added before after`** — what becomes of the imports of the other files when the file
of a path is added. -/
structure Shadowed (added : String) (before after : ImportGraph) : Prop where
  /-- No edge between other files is new. -/
  kept : ∀ edge ∈ after.edges, edge.source ≠ added → edge.target ≠ added → edge ∈ before.edges
  /-- In place of an edge that is gone the importer has one to the added file. -/
  moved : ∀ edge ∈ before.edges, edge ∉ after.edges → ⟨edge.source, added⟩ ∈ after.edges
  /-- What another file misses it missed before. -/
  missing : ∀ missing ∈ after.missing, missing.source ≠ added → missing ∈ before.missing

section

variable {root : String} {files files' : List TrackedFile} {specifiers : SpecifierMap}
  {added : TrackedFile} {imports : NameSet} {path : String}

theorem specifiers_of_cons (imports : NameSet) (hpath : path ≠ added.path) :
    SpecifierMap.of ((added.path, imports) :: specifiers) path = specifiers.of path := by
  unfold SpecifierMap.of
  rw [List.lookup_cons, beq_eq_false_iff_ne.mpr hpath]

/-- Among files with one more, what has another path is an old file. -/
theorem mem_of_mem_added (order : files'.Perm (added :: files)) {file : TrackedFile}
    (hfile : file ∈ files') (hpath : file.path ≠ added.path) : file ∈ files := by
  rcases List.mem_cons.mp (order.subset hfile) with rfl | hfile
  · exact absurd rfl hpath
  · exact hfile

/-- A specifier resolves among the files with one more as it did before, or to the added file. -/
theorem resolve?_ofFiles_added
    (keys : (files.map fun file => Path.key (Path.join root file.path)).Nodup)
    (fresh : Path.key (Path.join root added.path) ∉
      files.map fun file => Path.key (Path.join root file.path))
    (order : files'.Perm (added :: files)) (importer : String) (language : Language)
    (specifier : String) :
    resolve? (PathIndex.ofFiles root (files'.map (·.path))) root importer language specifier =
        resolve? (PathIndex.ofFiles root (files.map (·.path))) root importer language specifier ∨
      resolve? (PathIndex.ofFiles root (files'.map (·.path))) root importer language specifier =
        some added.path := by
  have hnodup : ((files'.map (·.path)).map fun p => Path.key (Path.join root p)).Nodup := by
    rw [List.map_map, (order.map _).nodup_iff]
    exact List.nodup_cons.mpr ⟨fresh, keys⟩
  rw [resolve?_congr (PathIndex.find?_ofFiles_added (order.map _) hnodup)]
  exact resolve?_add _ _ _ _ _ _ _

theorem shadowed_ofFiles
    (keys : (files.map fun file => Path.key (Path.join root file.path)).Nodup)
    (fresh : Path.key (Path.join root added.path) ∉
      files.map fun file => Path.key (Path.join root file.path))
    (order : files'.Perm (added :: files)) :
    Shadowed added.path (ofFiles root files specifiers)
      (ofFiles root files' ((added.path, imports) :: specifiers)) where
  kept := by
    intro edge hedge hsource htarget
    obtain ⟨file, hfile, specifier, hspecifier, hresolve, hfrom, hne⟩ := mem_edges_ofFiles.mp hedge
    rw [hfrom] at hsource
    rw [specifiers_of_cons imports hsource] at hspecifier
    refine mem_edges_ofFiles.mpr ⟨file, mem_of_mem_added order hfile hsource, specifier, hspecifier,
      ?_, hfrom, hne⟩
    rcases resolve?_ofFiles_added keys fresh order (Path.join root file.path) file.language
      specifier with hsame | hadded
    · rw [← hsame, hresolve]
    · rw [hresolve] at hadded
      exact absurd (Option.some.inj hadded) htarget
  moved := by
    intro edge hedge hgone
    obtain ⟨file, hfile, specifier, hspecifier, hresolve, hfrom, hne⟩ := mem_edges_ofFiles.mp hedge
    have hother : file.path ≠ added.path := by
      intro hsame
      exact fresh (List.mem_map.mpr ⟨file, hfile, by rw [hsame]⟩)
    rw [← specifiers_of_cons imports hother] at hspecifier
    have hfile' : file ∈ files' := order.symm.subset (List.mem_cons_of_mem added hfile)
    rcases resolve?_ofFiles_added keys fresh order (Path.join root file.path) file.language
      specifier with hsame | hadded
    · -- the specifier resolves as before, so the edge is not gone
      exact absurd (mem_edges_ofFiles.mpr
        ⟨file, hfile', specifier, hspecifier, hsame.trans hresolve, hfrom, hne⟩) hgone
    · exact mem_edges_ofFiles.mpr ⟨file, hfile', specifier, hspecifier, hadded, hfrom, hother⟩
  missing := by
    intro missing hmissing hsource
    obtain ⟨file, hfile, specifier, hspecifier, hresolve, hlocal, rfl⟩ :=
      mem_missing_ofFiles.mp hmissing
    rw [specifiers_of_cons imports hsource] at hspecifier
    refine mem_missing_ofFiles.mpr ⟨file, mem_of_mem_added order hfile hsource, specifier,
      hspecifier, ?_, hlocal, rfl⟩
    rcases resolve?_ofFiles_added keys fresh order (Path.join root file.path) file.language
      specifier with hsame | hadded
    · rw [← hsame, hresolve]
    · rw [hresolve] at hadded
      cases hadded

end

/-- **A file that is added takes imports over and changes nothing else**, whatever it imports itself
and wherever it stands among the files: an import of another file stays as it was or leads to the
added file.  So does a single specifier over any index. -/
theorem ofFiles_added (root : String) (files files' : List TrackedFile) (specifiers : SpecifierMap)
    (added : TrackedFile) (imports : NameSet)
    (keys : (files.map fun file => Path.key (Path.join root file.path)).Nodup)
    (fresh : Path.key (Path.join root added.path) ∉
      files.map fun file => Path.key (Path.join root file.path))
    (order : files'.Perm (added :: files)) :
    Shadowed added.path (ofFiles root files specifiers)
        (ofFiles root files' ((added.path, imports) :: specifiers)) ∧
      ∀ (index : PathIndex) (key path importer specifier : String) (language : Language),
        resolve? (index.add key path) root importer language specifier =
            resolve? index root importer language specifier ∨
          resolve? (index.add key path) root importer language specifier = some path :=
  ⟨shadowed_ofFiles keys fresh order, fun index key path importer specifier language =>
    resolve?_add index key path root importer language specifier⟩

/-- Two modules and the folder of that name that one of them imports. -/
def shadowedFiles : List TrackedFile :=
  [⟨"src/app.ts", ".ts", 3, [], []⟩, ⟨"src/view/index.ts", ".ts", 5, [], []⟩]

/-- A module that answers to the name of the folder before its index file does. -/
def shadowingFile : TrackedFile :=
  ⟨"src/view.ts", ".ts", 2, [], []⟩

/-- What the first module imports: the folder, and a file that is not there. -/
def shadowedSpecifiers : SpecifierMap :=
  [("src/app.ts", OrderedSet.ofList ["./view", "./gone"])]

theorem ofFiles_added_shadowingFile :
    (shadowedFiles.map fun file => Path.key (Path.join "/p" file.path)).Nodup ∧
      Path.key (Path.join "/p" shadowingFile.path) ∉
        (shadowedFiles.map fun file => Path.key (Path.join "/p" file.path)) ∧
      (shadowedFiles ++ [shadowingFile]).Perm (shadowingFile :: shadowedFiles) ∧
      Shadowed "src/view.ts" (ofFiles "/p" shadowedFiles shadowedSpecifiers)
          (ofFiles "/p" (shadowedFiles ++ [shadowingFile])
            (("src/view.ts", OrderedSet.ofList ["./app"]) :: shadowedSpecifiers)) ∧
        ∀ (index : PathIndex) (key path importer specifier : String) (language : Language),
          resolve? (index.add key path) "/p" importer language specifier =
              resolve? index "/p" importer language specifier ∨
            resolve? (index.add key path) "/p" importer language specifier = some path := by
  have keys : (shadowedFiles.map fun file => Path.key (Path.join "/p" file.path)).Nodup := by
    decide +kernel
  have fresh : Path.key (Path.join "/p" shadowingFile.path) ∉
      (shadowedFiles.map fun file => Path.key (Path.join "/p" file.path)) := by
    decide +kernel
  have order : (shadowedFiles ++ [shadowingFile]).Perm (shadowingFile :: shadowedFiles) :=
    List.perm_append_singleton shadowingFile shadowedFiles
  exact ⟨keys, fresh, order, ofFiles_added "/p" shadowedFiles (shadowedFiles ++ [shadowingFile])
    shadowedSpecifiers shadowingFile (OrderedSet.ofList ["./app"]) keys fresh order⟩

end ImportGraph

end SourceAtlas
