/-
# SourceAtlas.Proofs.Resolve.Separators — backslashes in specifiers.

Resolution turns the backslashes of an importer into slashes before anything else is done, so that
its separators make no difference.  Those of a specifier are turned last.  If it reads alike with
slashes, it resolves as that spelling from every importer and in every index
(`resolve?_eq_of_readsAlike`).  If it does not, some file alone in an index is found by one of the
two spellings only (`readsAlike_of_forall`).
-/
import SourceAtlas.Proofs.Resolve.Deep

namespace SourceAtlas

namespace Resolve

open SourceAtlas.Path Text

/-- In the index of one file, candidates find it if one of them has its key. -/
theorem findSome?_ofFiles_singleton (root file : String) (paths : List (List Char)) :
    paths.findSome? (fun path =>
        (PathIndex.ofFiles root [file]).find? (String.ofList (keyChars path))) =
      if keyChars (joinChars root.toList file.toList) ∈ paths.map keyChars then some file
      else none := by
  have hkey : key (join root file) =
      String.ofList (keyChars (joinChars root.toList file.toList)) := by
    unfold key join
    rw [String.toList_ofList]
  have hfind : ∀ path, (PathIndex.ofFiles root [file]).find? (String.ofList (keyChars path)) =
      if keyChars (joinChars root.toList file.toList) = keyChars path then some file else none := by
    intro path
    rw [PathIndex.find?_ofFiles_last, List.reverse_singleton, List.find?_singleton, hkey]
    simp only [beq_iff_eq, String.ofList_inj]
  induction paths with
  | nil => rfl
  | cons path rest ih =>
      rw [List.findSome?_cons, hfind, ih]
      by_cases heq : keyChars (joinChars root.toList file.toList) = keyChars path
      · simp [heq]
      · simp [heq]

end Resolve

open SourceAtlas.Path SourceAtlas.Resolve

variable {specifier : String}

/-- **A specifier that reads alike resolves as its spelling with slashes.** -/
theorem resolve?_eq_of_readsAlike (hhead : specifier.toList.head? = some '.')
    (hreads : ReadsAlike specifier.toList) (index : PathIndex) (root importer : String) :
    resolve? index root importer .ecmascript (withSlashes specifier) =
      resolve? index root importer .ecmascript specifier := by
  obtain ⟨rest, hspecifier⟩ := List.head?_eq_some_iff.mp hhead
  rw [hspecifier] at hreads
  have hbase : '\\' ∉ slashed (parentChars (slashed importer.toList)) := backslash_not_mem_slashed _
  obtain ⟨front, dirs, hhome⟩ := exists_isHome hbase
  have hkeys := hhome.map_keyChars hreads
  have hfind : ∀ paths : List (List Char),
      (paths.findSome? fun path => index.find? (String.ofList (keyChars path))) =
        (paths.map keyChars).findSome? fun chars => index.find? (String.ofList chars) := by
    intro paths
    rw [List.findSome?_map]
    rfl
  unfold resolve? withSlashes
  rw [String.toList_ofList, hspecifier, hfind, hfind]
  exact congrArg _ hkeys.symm

/-- Two spellings that find the same files have candidates of the same keys. -/
theorem sharesKeys_of_forall {rest : List Char}
    (hspecifier : specifier.toList = '.' :: rest)
    (hall : ∀ root importer file : String,
      resolve? (PathIndex.ofFiles root [file]) root importer .ecmascript (withSlashes specifier) =
        resolve? (PathIndex.ofFiles root [file]) root importer .ecmascript specifier)
    (importer : List Char) :
    SharesKeys (slashed (parentChars (slashed importer))) ('.' :: rest) := by
  have hone : ∀ path, keyChars path ∈ (quotedCandidates (under (parentChars (slashed importer))
      ('.' :: rest))).map keyChars ↔ keyChars path ∈ (quotedCandidates (under
        (parentChars (slashed importer)) (slashed ('.' :: rest)))).map keyChars := by
    intro path
    have hjoin : joinChars "".toList path = path := by
      unfold joinChars
      split
      · rfl
      · rfl
    -- a spelling finds the file of the path if the path has the key of one of its candidates
    have hfind : ∀ chars, resolve? (PathIndex.ofFiles "" [String.ofList path]) ""
        (String.ofList importer) .ecmascript (String.ofList ('.' :: chars)) =
          if keyChars path ∈ (quotedCandidates (under (parentChars (slashed importer))
            ('.' :: chars))).map keyChars then some (String.ofList path) else none := by
      intro chars
      unfold resolve?
      rw [findSome?_ofFiles_singleton]
      simp only [String.toList_ofList, hjoin]
      rfl
    have hpath := hall "" (String.ofList importer) (String.ofList path)
    have hself : specifier = String.ofList ('.' :: rest) := by
      rw [← hspecifier, String.ofList_toList]
    have hother : withSlashes specifier = String.ofList ('.' :: slashed rest) := by
      unfold withSlashes
      rw [hspecifier]
      rfl
    rw [hother, hself, hfind, hfind] at hpath
    have hsome := congrArg Option.isSome hpath
    rw [Bool.eq_iff_iff, Option.isSome_ite, Option.isSome_ite] at hsome
    exact hsome.symm
  intro key
  constructor
  · intro hkey
    obtain ⟨candidate, -, rfl⟩ := List.mem_map.mp hkey
    exact (hone candidate).mp hkey
  · intro hkey
    obtain ⟨candidate, -, rfl⟩ := List.mem_map.mp hkey
    exact (hone candidate).mpr hkey

/-- **Two spellings find the same files only if they are read alike.** -/
theorem readsAlike_of_forall (hhead : specifier.toList.head? = some '.')
    (hall : ∀ root importer file : String,
      resolve? (PathIndex.ofFiles root [file]) root importer .ecmascript (withSlashes specifier) =
        resolve? (PathIndex.ofFiles root [file]) root importer .ecmascript specifier) :
    ReadsAlike specifier.toList := by
  obtain ⟨rest, hspecifier⟩ := List.head?_eq_some_iff.mp hhead
  have hshares := sharesKeys_of_forall hspecifier hall
  rw [hspecifier]
  obtain ⟨home, hdeep⟩ := exists_isDeep ('.' :: rest)
  have hbegins : BeginsInName ('.' :: rest) := beginsInName_of_sharesKeys (hshares ['/', '/', 'x'])
  have hkeys : SharesKeys (stackPath home) ('.' :: rest) := by
    have hplace : ∀ s ∈ home ++ [['x']], IsPlain s :=
      List.forall_mem_append.mpr ⟨hdeep.plain, List.forall_mem_singleton.mpr (by decide)⟩
    have hdirectory := hshares (stackPath (home ++ [['x']]))
    rwa [slashed_stackPath hplace, parentChars_stackPath hplace, List.dropLast_concat,
      slashed_stackPath hdeep.plain] at hdirectory
  have hends := endsInName_of_sharesKeys hdeep hbegins hkeys
  exact ⟨(sameEnded_left_iff hbegins).mpr (sameEnded_of_sharesKeys hdeep hbegins hends hkeys),
    hbegins, hends⟩

/-- **Separators in resolution.**  Those of an importer can be exchanged.  A specifier that begins
with a dot resolves as its spelling with slashes, from every importer and in every index, exactly if
it reads alike; one that has no `..` behind a segment with a backslash does so exactly if it begins
and ends in a name. -/
theorem resolve?_withSlashes (specifier : String) :
    (∀ (index : PathIndex) (root : String) (language : Language) (importer importer' : String),
        List.Forall₂ (fun c d => c = d ∨ isSeparator c = true ∧ isSeparator d = true)
          importer.toList importer'.toList →
        resolve? index root importer language specifier =
          resolve? index root importer' language specifier) ∧
      (specifier.toList.head? = some '.' →
        (ReadsAlike specifier.toList → ∀ (index : PathIndex) (root importer : String),
          resolve? index root importer .ecmascript (withSlashes specifier) =
            resolve? index root importer .ecmascript specifier) ∧
        ((∀ root importer file : String,
            resolve? (PathIndex.ofFiles root [file]) root importer .ecmascript
                (withSlashes specifier) =
              resolve? (PathIndex.ofFiles root [file]) root importer .ecmascript specifier) →
          ReadsAlike specifier.toList) ∧
        (ClimbsFirst specifier.toList →
          (ReadsAlike specifier.toList ↔
            BeginsInName specifier.toList ∧ EndsInName specifier.toList))) := by
  refine ⟨?_, fun hhead => ⟨fun hreads => ?_, readsAlike_of_forall hhead, fun hclimbs => ?_⟩⟩
  · intro index root language importer importer' h
    have hslashed := slashed_eq_of_forall₂ h
    unfold resolve? candidates
    rw [hslashed]
  · exact resolve?_eq_of_readsAlike hhead hreads
  · obtain ⟨rest, hspecifier⟩ := List.head?_eq_some_iff.mp hhead
    rw [hspecifier] at hclimbs ⊢
    exact readsAlike_iff_of_climbsFirst hclimbs

/-- Separators exchanged in an importer, a backslash between two names, one at the end, and one that
a `..` takes away with its segment. -/
theorem resolve?_withSlashes_backslashes :
    (List.Forall₂ (fun c d => c = d ∨ isSeparator c = true ∧ isSeparator d = true)
          "/r/src\\x.ts".toList "/r\\src/x.ts".toList ∧
        resolve? (PathIndex.ofFiles "/r" ["src/a.ts"]) "/r" "/r/src\\x.ts" .ecmascript "./a" =
          resolve? (PathIndex.ofFiles "/r" ["src/a.ts"]) "/r" "/r\\src/x.ts" .ecmascript "./a") ∧
      ("./lib\\a".toList.head? = some '.' ∧ ReadsAlike "./lib\\a".toList ∧
        ∀ (index : PathIndex) (root importer : String),
          resolve? index root importer .ecmascript (withSlashes "./lib\\a") =
            resolve? index root importer .ecmascript "./lib\\a") ∧
      ("./a\\".toList.head? = some '.' ∧ ClimbsFirst "./a\\".toList ∧ ¬ EndsInName "./a\\".toList ∧
        ¬ ∀ root importer file : String,
          resolve? (PathIndex.ofFiles root [file]) root importer .ecmascript (withSlashes "./a\\") =
            resolve? (PathIndex.ofFiles root [file]) root importer .ecmascript "./a\\") ∧
      "./a\\b/../c".toList.head? = some '.' ∧ ¬ ReadsAlike "./a\\b/../c".toList ∧
        ¬ ∀ root importer file : String,
          resolve? (PathIndex.ofFiles root [file]) root importer .ecmascript
              (withSlashes "./a\\b/../c") =
            resolve? (PathIndex.ofFiles root [file]) root importer .ecmascript "./a\\b/../c" := by
  have himporter : List.Forall₂ (fun c d => c = d ∨ isSeparator c = true ∧ isSeparator d = true)
      "/r/src\\x.ts".toList "/r\\src/x.ts".toList := by decide
  have hclimbs : ClimbsFirst "./lib\\a".toList ∧ ClimbsFirst "./a\\".toList := by decide
  have hends : ¬ EndsInName "./a\\".toList := by decide
  have hbetween : ReadsAlike "./lib\\a".toList :=
    (((resolve?_withSlashes "./lib\\a").2 rfl).2.2 hclimbs.1).mpr (by decide)
  have htaken : ¬ ReadsAlike "./a\\b/../c".toList := by decide +kernel
  refine ⟨⟨himporter, ?_⟩, ⟨rfl, hbetween, ?_⟩, ⟨rfl, hclimbs.2, hends, fun h => ?_⟩, rfl, htaken,
    fun h => ?_⟩
  · exact (resolve?_withSlashes "./a").1 _ _ _ _ _ himporter
  · exact ((resolve?_withSlashes "./lib\\a").2 rfl).1 hbetween
  · exact hends (((resolve?_withSlashes "./a\\").2 rfl).2.1 h).ends
  · exact htaken (((resolve?_withSlashes "./a\\b/../c").2 rfl).2.1 h)

/-- With a backslash at its end a specifier misses what it finds with a slash there. -/
theorem resolve?_ne_of_backslashAtEnd :
    ¬ ∀ (root : String) (files : List String) (importer specifier : String),
        specifier.toList.head? = some '.' →
        resolve? (PathIndex.ofFiles root files) root importer .ecmascript specifier =
          resolve? (PathIndex.ofFiles root files) root importer .ecmascript
            (withSlashes specifier) := by
  intro hall
  have hone := hall "/r" ["src/x.ts", "src/a.ts"] "/r/src/x.ts" "./a\\" rfl
  have hbackslash : resolve? (PathIndex.ofFiles "/r" ["src/x.ts", "src/a.ts"]) "/r" "/r/src/x.ts"
      .ecmascript "./a\\" = none := by decide +kernel
  have hslash : resolve? (PathIndex.ofFiles "/r" ["src/x.ts", "src/a.ts"]) "/r" "/r/src/x.ts"
      .ecmascript (withSlashes "./a\\") = some "src/a.ts" := by decide +kernel
  rw [hbackslash, hslash] at hone
  cases hone

end SourceAtlas
