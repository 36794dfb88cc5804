/-
# SourceAtlas.Proofs.ImportGraph.Realise — every import graph has source text.

A plan is a list of files and the edges that are wanted between them.  Its text gives every file a
line for each of its targets: ECMAScript files climb to the root and go down the target's path,
Python files write the target's dotted name.  If the files can be named at all and no two of them
share a key, then extraction and resolution of that text give back exactly the wanted edges and miss
nothing (`ImportPlan.realised`).

The whole chain takes part in this: the extractors read the lines exactly, the first candidate of
every specifier is its target, and the index finds each file under its own key.
-/
import SourceAtlas.Proofs.Extract.Dotted
import SourceAtlas.Proofs.Extract.Quoted
import SourceAtlas.Proofs.ImportGraph.Links
import SourceAtlas.Proofs.Path.Key
import SourceAtlas.Proofs.Path.Suffix
import SourceAtlas.Proofs.Resolve.Direct

namespace SourceAtlas

open Resolve

/-! ## Plans -/

/-- **`Importable file`** — import lines can name the file and be written in it: its segments are
ordinary, it holds neither a quote nor a backslash, and its extension is that of an ECMAScript file
or it is `.py` and the rest of the path is word characters. -/
structure Importable (file : TrackedFile) : Prop where
  extension : file.extension = TrackedFile.extensionOf file.path
  segments : ∀ s ∈ Path.segments file.path.toList, s ≠ [] ∧ s ≠ Path.dot ∧ s ≠ Path.dotDot
  characters : ∀ c ∈ file.path.toList, c ≠ '\\' ∧ Extract.isQuote c = false
  grammar : file.extension ∈ Language.ecmascriptExtensions ∨
    file.extension = ".py" ∧ ∃ stem, file.path.toList = stem ++ ['.', 'p', 'y'] ∧
      ∀ c ∈ stem, c = '/' ∨ Text.isWord c = true

/-- Files and the edges that are wanted between them. -/
structure ImportPlan where
  files : List TrackedFile
  edges : OrderedSet Edge
  /-- The targets of a file, in the order in which its lines name them. -/
  targets : String → List String

namespace ImportPlan

/-- The specifier by which a file of a language names a target. -/
def specifier (language : Language) (path target : String) : List Char :=
  match language with
  | .ecmascript => climb path.toList ++ target.toList
  | .python => moduleName target.toList
  | .none => []

/-- The text of a file: one import line per target. -/
def text (language : Language) (path : String) (targets : List String) : List Char :=
  match language with
  | .ecmascript => Extract.quotedLines (targets.map (specifier .ecmascript path))
  | .python => Extract.dottedLines (targets.map (specifier .python path))
  | .none => []

/-- What extraction finds in the text of every file. -/
def specifiers (plan : ImportPlan) : SpecifierMap :=
  plan.files.map fun file =>
    (file.path, specifiersOf file.language (text file.language file.path (plan.targets file.path)))

/-- **`Valid plan`** — the files can be named and told apart, every edge joins two of them that
differ and share a language, and the targets of a file are those of its edges. -/
structure Valid (plan : ImportPlan) : Prop where
  importable : ∀ file ∈ plan.files, Importable file
  distinct : (plan.files.map fun file => Path.key file.path).Nodup
  joins : ∀ edge ∈ plan.edges, edge.source ≠ edge.target ∧
    ∃ importer ∈ plan.files, ∃ target ∈ plan.files, importer.path = edge.source ∧
      target.path = edge.target ∧ importer.language = target.language
  listed : ∀ file ∈ plan.files, ∀ target,
    target ∈ plan.targets file.path ↔ ⟨file.path, target⟩ ∈ plan.edges

end ImportPlan

/-! ## One file -/

namespace Importable

variable {file : TrackedFile}

theorem plain (h : Importable file) : ∀ s ∈ Path.segments file.path.toList, Path.IsPlain s := by
  intro s hs
  obtain ⟨hne, hdot, hdotDot⟩ := h.segments s hs
  refine ⟨hne, hdot, hdotDot, Path.slash_not_mem_of_mem_segments hs, fun hback => ?_⟩
  exact (h.characters _ (Path.mem_of_mem_segments hs hback)).1 rfl

theorem language_ecmascript (h : file.extension ∈ Language.ecmascriptExtensions) :
    file.language = .ecmascript := by
  have htable : ∀ e ∈ Language.ecmascriptExtensions, Language.ofExtension e = .ecmascript := by
    decide +kernel
  exact htable _ h

theorem language_python (h : file.extension = ".py") : file.language = .python := by
  unfold TrackedFile.language
  rw [h]
  decide +kernel

theorem grammar_ecmascript (h : Importable file) (hlanguage : file.language = .ecmascript) :
    file.extension ∈ Language.ecmascriptExtensions := by
  rcases h.grammar with hext | ⟨hpy, -⟩
  · exact hext
  · rw [language_python hpy] at hlanguage
    cases hlanguage

theorem grammar_python (h : Importable file) (hlanguage : file.language = .python) :
    file.extension = ".py" ∧ ∃ stem, file.path.toList = stem ++ ['.', 'p', 'y'] ∧
      ∀ c ∈ stem, c = '/' ∨ Text.isWord c = true := by
  rcases h.grammar with hext | hpy
  · rw [language_ecmascript hext] at hlanguage
    cases hlanguage
  · exact hpy

/-- The segments of a Python path without its suffix are plain too. -/
theorem plain_stem (h : Importable file) (hpy : file.extension = ".py") {stem : List Char}
    (hpath : file.path.toList = stem ++ ['.', 'p', 'y'])
    (hword : ∀ c ∈ stem, c = '/' ∨ Text.isWord c = true) :
    ∀ s ∈ Path.segments stem, Path.IsPlain s := by
  obtain ⟨dirs, last, hstem⟩ := Path.exists_segments_concat stem
  have hmem : last ∈ Path.segments stem := by
    rw [hstem]
    simp
  have hslash : ∀ s ∈ dirs ++ [last ++ ['.', 'p', 'y']], '/' ∉ s := by
    intro s hs
    rcases List.mem_append.mp hs with hs | hs
    · exact Path.slash_not_mem_of_mem_segments (hstem ▸ List.mem_append_left _ hs)
    · rw [List.mem_singleton.mp hs, List.mem_append, not_or]
      exact ⟨Path.slash_not_mem_of_mem_segments hmem, by decide⟩
  have hsegments : Path.segments file.path.toList = dirs ++ [last ++ ['.', 'p', 'y']] := by
    rw [hpath, ← Path.joined_segments stem, hstem, Path.joined_concat_append,
      Path.segments_joined (by simp) hslash]
  have hwordLast : ∀ c ∈ last, Text.isWord c = true := by
    intro c hc
    rcases hword c (Path.mem_of_mem_segments hmem hc) with rfl | hw
    · exact absurd hc (Path.slash_not_mem_of_mem_segments hmem)
    · exact hw
  -- a name that is nothing but its suffix has no suffix
  have hlast : last ≠ [] := by
    intro hnil
    have hname := Path.nameChars_of_plain hsegments h.plain
    have hext := h.extension
    rw [hpy] at hext
    unfold TrackedFile.extensionOf Path.suffix at hext
    rw [hname, hnil] at hext
    exact absurd hext (by decide +kernel)
  intro s hs
  rw [hstem] at hs
  rcases List.mem_append.mp hs with hs | hs
  · exact h.plain s (hsegments ▸ List.mem_append_left _ hs)
  · rw [List.mem_singleton.mp hs]
    have hno : ∀ c : Char, Text.isWord c = false → c ∉ last := by
      intro c hc hmem
      rw [hwordLast c hmem] at hc
      cases hc
    refine ⟨hlast, ?_, ?_, hno '/' (by decide), hno '\\' (by decide)⟩
    · intro heq
      apply hno '.' (by decide)
      rw [heq]
      decide
    · intro heq
      apply hno '.' (by decide)
      rw [heq]
      decide

/-- A Python path without its suffix holds no dot. -/
theorem dot_not_mem_stem {stem : List Char} (hword : ∀ c ∈ stem, c = '/' ∨ Text.isWord c = true) :
    '.' ∉ stem := by
  intro hdot
  rcases hword '.' hdot with h | h
  · exact absurd h (by decide)
  · exact absurd h (by decide)

/-- The name of a Python file is a dotted name. -/
theorem dotted_moduleName (h : Importable file) (hpy : file.extension = ".py") {stem : List Char}
    (hpath : file.path.toList = stem ++ ['.', 'p', 'y'])
    (hword : ∀ c ∈ stem, c = '/' ∨ Text.isWord c = true) :
    moduleName file.path.toList ≠ [] ∧
      ∀ c ∈ moduleName file.path.toList, Extract.isDotted c = true := by
  rw [moduleName_append hpath]
  constructor
  · intro hnil
    have hstem : stem = [] := by simpa [Text.replaceChar] using hnil
    have hplain := h.plain_stem hpy hpath hword
    rw [hstem] at hplain
    exact (hplain [] (by decide)).1 rfl
  · intro c hc
    obtain ⟨d, hd, rfl⟩ := List.mem_map.mp hc
    rcases hword d hd with rfl | hd
    · rfl
    · by_cases hslash : d = '/'
      · rw [hslash]
        rfl
      · have hsame : (if d == '/' then '.' else d) = d := by simp [hslash]
        show Extract.isDotted (if d == '/' then '.' else d) = true
        rw [hsame]
        unfold Extract.isDotted
        rw [hd, Bool.true_or]

/-- An ECMAScript specifier of a target can stand between quotes. -/
theorem quotable_specifier {path : String} (h : Importable file)
    (hext : file.extension ∈ Language.ecmascriptExtensions) :
    Extract.QuotedForm.NoQuote (ImportPlan.specifier .ecmascript path file.path) ∧
      Extract.QuotedForm.Sealed (ImportPlan.specifier .ecmascript path file.path) := by
  constructor
  · intro c hc
    rcases List.mem_append.mp hc with hc | hc
    · rcases mem_climb hc with rfl | rfl
      · rfl
      · rfl
    · exact (h.characters c hc).2
  · have hsealed := Path.sealed_of_extension h.plain (h.extension ▸ hext)
    obtain ⟨before, c, hpath, hblank, hparen⟩ := hsealed
    refine ⟨climb path.toList ++ before, c, ?_, hblank, hparen⟩
    show climb path.toList ++ file.path.toList = climb path.toList ++ before ++ [c]
    rw [hpath, List.append_assoc]

/-- **What a file writes is what extraction finds in it.** -/
theorem specifiersOf_text {targets : List String} (h : Importable file)
    (htargets : ∀ target ∈ targets, ∃ other, Importable other ∧ other.path = target ∧
      file.language = other.language) :
    specifiersOf file.language (ImportPlan.text file.language file.path targets) =
      OrderedSet.ofList
        ((targets.map (ImportPlan.specifier file.language file.path)).map String.ofList) := by
  rcases h.grammar with hext | ⟨hpy, -⟩
  · have hlanguage := language_ecmascript hext
    rw [hlanguage] at htargets ⊢
    have hquotable : ∀ name ∈ targets.map (ImportPlan.specifier .ecmascript file.path),
        Extract.QuotedForm.NoQuote name ∧ Extract.QuotedForm.Sealed name := by
      intro name hname
      obtain ⟨target, htarget, rfl⟩ := List.mem_map.mp hname
      obtain ⟨other, hother, rfl, hsame⟩ := htargets target htarget
      exact quotable_specifier hother (hother.grammar_ecmascript hsame.symm)
    unfold specifiersOf ImportPlan.text
    simp only [Extract.quotedSpecifiers_quotedLines hquotable]
  · have hlanguage := language_python hpy
    rw [hlanguage] at htargets ⊢
    have hdotted : ∀ name ∈ targets.map (ImportPlan.specifier .python file.path),
        name ≠ [] ∧ ∀ c ∈ name, Extract.isDotted c = true := by
      intro name hname
      obtain ⟨target, htarget, rfl⟩ := List.mem_map.mp hname
      obtain ⟨other, hother, rfl, hsame⟩ := htargets target htarget
      obtain ⟨hpy', stem, hpath, hword⟩ := hother.grammar_python hsame.symm
      exact hother.dotted_moduleName hpy' hpath hword
    unfold specifiersOf ImportPlan.text
    simp only [Extract.dottedSpecifiers_dottedLines hdotted]

/-- **What a file writes for a target resolves to the target.** -/
theorem resolve?_specifier {other : TrackedFile} {index : PathIndex} {root : String}
    (habs : Path.isAbsolute root.toList = true)
    (hnormal : Path.normal (Path.slashed root.toList) = root.toList) (h : Importable file)
    (hother : Importable other) (hsame : file.language = other.language)
    (hfind : index.find? (Path.key (Path.join root other.path)) = some other.path) :
    resolve? index root (Path.join root file.path) file.language
      (String.ofList (ImportPlan.specifier file.language file.path other.path)) =
      some other.path := by
  rcases hother.grammar with hext | ⟨hpy, stem, hpath, hword⟩
  · rw [hsame, language_ecmascript hext]
    exact resolve?_climb habs hnormal h.plain hother.plain hfind
  · rw [hsame, language_python hpy]
    exact resolve?_moduleName habs hnormal hpath (hother.plain_stem hpy hpath hword)
      (dot_not_mem_stem hword) hfind

end Importable

/-! ## The whole plan -/

namespace ImportPlan

variable {plan : ImportPlan}

/-- Files under one root have distinct keys if their relative paths have. -/
theorem nodup_keys (hvalid : plan.Valid) {root : String}
    (habs : Path.isAbsolute root.toList = true)
    (hnormal : Path.normal (Path.slashed root.toList) = root.toList) :
    ((plan.files.map (·.path)).map fun path => Path.key (Path.join root path)).Nodup := by
  rw [List.map_map]
  have hdistinct := hvalid.distinct
  rw [List.nodup_iff_pairwise_ne, List.pairwise_map] at hdistinct ⊢
  refine List.Pairwise.imp_of_mem ?_ hdistinct
  intro file other hfile hother hne heq
  exact hne (Path.key_of_key_join habs hnormal (hvalid.importable file hfile).plain
    (hvalid.importable other hother).plain heq)

theorem specifiers_of (hvalid : plan.Valid) {file : TrackedFile} (hfile : file ∈ plan.files) :
    plan.specifiers.of file.path =
      specifiersOf file.language (text file.language file.path (plan.targets file.path)) := by
  have hnodup : (plan.specifiers.map Prod.fst).Nodup := by
    have hdistinct := hvalid.distinct
    unfold specifiers
    rw [List.map_map]
    rw [List.nodup_iff_pairwise_ne, List.pairwise_map] at hdistinct ⊢
    exact hdistinct.imp fun hne heq => hne (congrArg Path.key heq)
  unfold SpecifierMap.of
  rw [lookup_of_nodup hnodup (List.mem_map.mpr ⟨file, hfile, rfl⟩)]
  rfl

/-- The target of an edge is a file that can be named, in the language of the source. -/
theorem exists_target (hvalid : plan.Valid) {file : TrackedFile} (hfile : file ∈ plan.files)
    {target : String} (hedge : ⟨file.path, target⟩ ∈ plan.edges) :
    ∃ other ∈ plan.files, Importable other ∧ other.path = target ∧
      file.language = other.language := by
  obtain ⟨-, importer, himporter, other, hother, hsource, htarget, hsame⟩ :=
    hvalid.joins _ hedge
  have hkey : Path.key importer.path = Path.key file.path := by
    rw [hsource]
  have heq : importer = file :=
    List.inj_on_of_nodup_map hvalid.distinct himporter hfile hkey
  rw [heq] at hsame
  exact ⟨other, hother, hvalid.importable other hother, htarget, hsame⟩

/-- A file finds exactly the specifiers of its edges. -/
theorem mem_specifiers_of (hvalid : plan.Valid) {file : TrackedFile} (hfile : file ∈ plan.files)
    {found : String} :
    found ∈ plan.specifiers.of file.path ↔
      ∃ target, ⟨file.path, target⟩ ∈ plan.edges ∧
        found = String.ofList (specifier file.language file.path target) := by
  have htargets : ∀ target ∈ plan.targets file.path, ∃ other, Importable other ∧
      other.path = target ∧ file.language = other.language := by
    intro target htarget
    have hedge := (hvalid.listed file hfile target).mp htarget
    obtain ⟨other, -, h⟩ := exists_target hvalid hfile hedge
    exact ⟨other, h⟩
  rw [specifiers_of hvalid hfile, (hvalid.importable file hfile).specifiersOf_text htargets,
    OrderedSet.mem_ofList, List.map_map, List.mem_map]
  constructor
  · rintro ⟨target, htarget, rfl⟩
    exact ⟨target, (hvalid.listed file hfile target).mp htarget, rfl⟩
  · rintro ⟨target, hedge, rfl⟩
    exact ⟨target, (hvalid.listed file hfile target).mpr hedge, rfl⟩

/-- **Every import graph has source text.**  Under an absolute root in normal form, the graph of a
valid plan has exactly the edges of the plan, and no specifier of its text is missing. -/
theorem realised {root : String} (habs : Path.isAbsolute root.toList = true)
    (hnormal : Path.normal (Path.slashed root.toList) = root.toList) (hvalid : plan.Valid) :
    (ImportGraph.ofFiles root plan.files plan.specifiers).edges = plan.edges ∧
      (ImportGraph.ofFiles root plan.files plan.specifiers).missing = OrderedSet.empty := by
  -- the specifier of every edge leads to the target of the edge
  have hresolve : ∀ file ∈ plan.files, ∀ target, ⟨file.path, target⟩ ∈ plan.edges →
      resolve? (PathIndex.ofFiles root (plan.files.map (·.path))) root
        (Path.join root file.path) file.language
        (String.ofList (specifier file.language file.path target)) = some target := by
    intro file hfile target hedge
    obtain ⟨other, hmem, hother, rfl, hsame⟩ := exists_target hvalid hfile hedge
    apply (hvalid.importable file hfile).resolve?_specifier habs hnormal hother hsame
    exact PathIndex.find?_ofFiles_of_nodup (nodup_keys hvalid habs hnormal)
      (List.mem_map_of_mem hmem)
  constructor
  · apply OrderedSet.ext_mem
    intro edge
    rw [ImportGraph.mem_edges_ofFiles]
    constructor
    · rintro ⟨file, hfile, found, hfound, hbrings, hsource, -⟩
      obtain ⟨target, hedge, rfl⟩ := (mem_specifiers_of hvalid hfile).mp hfound
      rw [hresolve file hfile target hedge] at hbrings
      cases edge
      cases hsource
      cases hbrings
      exact hedge
    · intro hedge
      obtain ⟨hne, file, hfile, -, -, hsource, -⟩ := hvalid.joins edge hedge
      have hedge' : ⟨file.path, edge.target⟩ ∈ plan.edges := by
        rw [hsource]
        exact hedge
      refine ⟨file, hfile, _, (mem_specifiers_of hvalid hfile).mpr ⟨_, hedge', rfl⟩,
        hresolve file hfile _ hedge', hsource.symm, ?_⟩
      rw [hsource]
      exact hne
  · apply OrderedSet.ext_mem
    intro missing
    rw [ImportGraph.mem_missing_ofFiles]
    constructor
    · rintro ⟨file, hfile, found, hfound, hlacks, -⟩
      obtain ⟨target, hedge, rfl⟩ := (mem_specifiers_of hvalid hfile).mp hfound
      rw [hresolve file hfile target hedge] at hlacks
      cases hlacks
    · intro hmissing
      exact absurd hmissing List.not_mem_nil

/-! ## A cycle across directories, and a Python import -/

/-- Two ECMAScript files that import each other and a Python file that imports another. -/
def crossPlan : ImportPlan where
  files := [⟨"src/a.ts", ".ts", 0, [], []⟩, ⟨"src/lib/B.TSX", ".tsx", 0, [], []⟩,
    ⟨"pkg/m.py", ".py", 0, [], []⟩, ⟨"n.py", ".py", 0, [], []⟩]
  edges := OrderedSet.ofList [⟨"src/a.ts", "src/lib/B.TSX"⟩, ⟨"src/lib/B.TSX", "src/a.ts"⟩,
    ⟨"pkg/m.py", "n.py"⟩]
  targets path :=
    if path = "src/a.ts" then ["src/lib/B.TSX"]
    else if path = "src/lib/B.TSX" then ["src/a.ts"]
    else if path = "pkg/m.py" then ["n.py"]
    else []

example : text .ecmascript "src/lib/B.TSX" ["src/a.ts"] =
    "import \"../../src/a.ts\"\n".toList := by
  decide

theorem crossPlan_valid : crossPlan.Valid where
  importable := by
    intro file hfile
    simp only [crossPlan, List.mem_cons, List.not_mem_nil, or_false] at hfile
    rcases hfile with rfl | rfl | rfl | rfl
    · exact ⟨by decide +kernel, by decide +kernel, Text.forall_mem_of_all (by decide +kernel),
        Or.inl (by decide)⟩
    · exact ⟨by decide +kernel, by decide +kernel, Text.forall_mem_of_all (by decide +kernel),
        Or.inl (by decide)⟩
    · exact ⟨by decide +kernel, by decide +kernel, Text.forall_mem_of_all (by decide +kernel),
        Or.inr ⟨rfl, "pkg/m".toList, by decide, Text.forall_mem_of_all (by decide)⟩⟩
    · exact ⟨by decide +kernel, by decide +kernel, Text.forall_mem_of_all (by decide +kernel),
        Or.inr ⟨rfl, "n".toList, by decide, Text.forall_mem_of_all (by decide)⟩⟩
  distinct := by decide +kernel
  joins := by
    intro edge hedge
    revert edge
    decide +kernel
  listed := by
    intro file hfile target
    simp only [crossPlan, List.mem_cons, List.not_mem_nil, or_false] at hfile
    rw [show crossPlan.edges = OrderedSet.ofList [⟨"src/a.ts", "src/lib/B.TSX"⟩,
      ⟨"src/lib/B.TSX", "src/a.ts"⟩, ⟨"pkg/m.py", "n.py"⟩] from rfl, OrderedSet.mem_ofList]
    rcases hfile with rfl | rfl | rfl | rfl
    · simp [crossPlan]
    · simp [crossPlan]
    · simp [crossPlan]
    · simp [crossPlan]

theorem realised_crossPlan :
    Path.isAbsolute "/work/app".toList = true ∧
      Path.normal (Path.slashed "/work/app".toList) = "/work/app".toList ∧ crossPlan.Valid ∧
      (ImportGraph.ofFiles "/work/app" crossPlan.files crossPlan.specifiers).edges =
        crossPlan.edges ∧
      (ImportGraph.ofFiles "/work/app" crossPlan.files crossPlan.specifiers).missing =
        OrderedSet.empty :=
  ⟨by decide, by decide, crossPlan_valid, realised (by decide) (by decide) crossPlan_valid⟩

end ImportPlan

end SourceAtlas
