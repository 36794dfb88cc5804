/-
# SourceAtlas.Proofs.ImportGraph.SelfImport — what counts as an import of oneself.

A single specifier is resolved by key: a file that has the importer's key is the importer
(`resolveOther?_eq_some_iff`).  The graph compares paths as they are written.  The two agree on
every target whose key is not the importer's; a target under the importer's key and another path is
the only edge that resolving one specifier at a time does not find (`mem_edges_ofFiles_iff`).  Where
names differ in case alone there is such an edge (`letterCase_edge`), and where they do not there is
none (`mem_edges_ofFiles_of_distinct`).
-/
import SourceAtlas.Proofs.ImportGraph.Links

namespace SourceAtlas

variable {index : PathIndex} {root importer own specifier target : String} {language : Language}

/-- **A specifier stands for another file exactly if it resolves to a file with another key.** -/
theorem resolveOther?_eq_some_iff :
    resolveOther? index root importer language (some own) specifier = some target ↔
      resolve? index root importer language specifier = some target ∧
        Path.key target ≠ Path.key own := by
  unfold resolveOther?
  rw [Option.filter_eq_some_iff]
  simp

namespace ImportGraph

variable {files : List TrackedFile} {specifiers : SpecifierMap} {file : TrackedFile}

/-- The edges of a file are what its own specifiers bring. -/
theorem mem_edges_of_source (distinct : (files.map (·.path)).Nodup) (hfile : file ∈ files) :
    ⟨file.path, target⟩ ∈ (ofFiles root files specifiers).edges ↔
      ∃ specifier ∈ specifiers.of file.path,
        resolve? (PathIndex.ofFiles root (files.map (·.path))) root (Path.join root file.path)
            file.language specifier = some target ∧
          target ≠ file.path := by
  rw [mem_edges_ofFiles]
  constructor
  · rintro ⟨other, hother, specifier, hspecifier, hresolve, hsource, hne⟩
    have hsame : other = file := List.inj_on_of_nodup_map distinct hother hfile hsource.symm
    rw [hsame] at hspecifier hresolve hne
    exact ⟨specifier, hspecifier, hresolve, hne.symm⟩
  · rintro ⟨specifier, hspecifier, hresolve, hne⟩
    exact ⟨file, hfile, specifier, hspecifier, hresolve, rfl, hne.symm⟩

/-- **A file has an edge to a target exactly if one of its specifiers stands for the target as
another file, or resolves to it where it is another file under the importer's own key.** -/
theorem mem_edges_ofFiles_iff (root : String) (files : List TrackedFile)
    (specifiers : SpecifierMap) (distinct : (files.map (·.path)).Nodup) (file : TrackedFile)
    (hfile : file ∈ files) (target : String) :
    ⟨file.path, target⟩ ∈ (ofFiles root files specifiers).edges ↔
      ∃ specifier ∈ specifiers.of file.path,
        resolveOther? (PathIndex.ofFiles root (files.map (·.path))) root
            (Path.join root file.path) file.language (some file.path) specifier = some target ∨
          resolve? (PathIndex.ofFiles root (files.map (·.path))) root (Path.join root file.path)
              file.language specifier = some target ∧
            target ≠ file.path ∧ Path.key target = Path.key file.path := by
  rw [mem_edges_of_source distinct hfile]
  refine exists_congr fun specifier => and_congr_right fun _ => ?_
  rw [resolveOther?_eq_some_iff]
  constructor
  · rintro ⟨hresolve, hne⟩
    by_cases hkey : Path.key target = Path.key file.path
    · exact Or.inr ⟨hresolve, hne, hkey⟩
    · exact Or.inl ⟨hresolve, hkey⟩
  · rintro (⟨hresolve, hkey⟩ | ⟨hresolve, hne, -⟩)
    · refine ⟨hresolve, fun hsame => hkey ?_⟩
      rw [hsame]
    · exact ⟨hresolve, hne⟩

/-- Two files of a folder whose names differ in case alone, and what the first of them imports. -/
def letterCaseFiles : List TrackedFile :=
  [⟨"a.py", ".py", 0, [], []⟩, ⟨"A.py", ".py", 0, [], []⟩]

/-- The first file imports the module of its own name. -/
def letterCaseSpecifiers : SpecifierMap :=
  [("a.py", OrderedSet.ofList ["a"])]

theorem mem_edges_ofFiles_iff_letterCase :
    (letterCaseFiles.map (·.path)).Nodup ∧ ⟨"a.py", ".py", 0, [], []⟩ ∈ letterCaseFiles ∧
      (⟨"a.py", "A.py"⟩ ∈ (ofFiles "/r" letterCaseFiles letterCaseSpecifiers).edges ↔
        ∃ specifier ∈ letterCaseSpecifiers.of "a.py",
          resolveOther? (PathIndex.ofFiles "/r" (letterCaseFiles.map (·.path))) "/r"
              (Path.join "/r" "a.py") .python (some "a.py") specifier = some "A.py" ∨
            resolve? (PathIndex.ofFiles "/r" (letterCaseFiles.map (·.path))) "/r"
                (Path.join "/r" "a.py") .python specifier = some "A.py" ∧
              "A.py" ≠ "a.py" ∧ Path.key "A.py" = Path.key "a.py") :=
  ⟨by decide, by decide, mem_edges_ofFiles_iff "/r" letterCaseFiles letterCaseSpecifiers (by decide)
    ⟨"a.py", ".py", 0, [], []⟩ (by decide) "A.py"⟩

/-- **Files are told apart by path and not by key**: the graph has an edge from the first file to
the second, and yet none of the first file's specifiers stands for another file. -/
theorem letterCase_edge :
    (letterCaseFiles.map (·.path)).Nodup ∧
      ⟨"a.py", "A.py"⟩ ∈ (ofFiles "/r" letterCaseFiles letterCaseSpecifiers).edges.toList ∧
      ∀ specifier ∈ (letterCaseSpecifiers.of "a.py").toList,
        resolveOther? (PathIndex.ofFiles "/r" (letterCaseFiles.map (·.path))) "/r"
          (Path.join "/r" "a.py") .python (some "a.py") specifier = none := by
  decide +kernel

/-- Where no two files have one key, edges are what single specifiers stand for. -/
theorem mem_edges_ofFiles_of_distinct (keys : (files.map fun f => Path.key f.path).Nodup)
    (hfile : file ∈ files) :
    ⟨file.path, target⟩ ∈ (ofFiles root files specifiers).edges ↔
      ∃ specifier ∈ specifiers.of file.path,
        resolveOther? (PathIndex.ofFiles root (files.map (·.path))) root
          (Path.join root file.path) file.language (some file.path) specifier = some target := by
  have distinct : (files.map (·.path)).Nodup := by
    refine List.Nodup.of_map Path.key ?_
    rw [List.map_map]
    exact keys
  rw [mem_edges_of_source distinct hfile]
  refine exists_congr fun specifier => and_congr_right fun _ => ?_
  rw [resolveOther?_eq_some_iff]
  refine and_congr_right fun hresolve => not_congr ⟨congrArg Path.key, fun hkey => ?_⟩
  obtain ⟨key, hfind⟩ := exists_find?_of_resolve? hresolve
  obtain ⟨other, hother, rfl⟩ := List.mem_map.mp (PathIndex.find?_ofFiles_mem hfind).1
  rw [List.inj_on_of_nodup_map keys hother hfile hkey]

end ImportGraph

end SourceAtlas
