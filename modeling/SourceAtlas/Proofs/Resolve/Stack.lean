/-
# SourceAtlas.Proofs.Resolve.Stack — resolution told on stacks of segments.

Resolution joins texts, takes their parents and brings them into normal form, several times over.
The same is told here without texts.  A place is the stack of the segments that lead to it.  An
ECMAScript specifier is read part by part from where the importer or the root lies
(`quotedStack?`); the leading dots of a Python name take segments off and the names between its dots
are put on (`dottedStacks`).  Every such place stands for a few paths to probe, and the answer is
the last of the files that lies at the first probe at which any file lies (`answer?`).

The two agree on every specifier that extraction can return (`resolve?_eq_answer?`).
-/
import Mathlib.Data.List.Find
import SourceAtlas.Proofs.Extract.Lines
import SourceAtlas.Proofs.Extract.Segments
import SourceAtlas.Proofs.ImportGraph.Links
import SourceAtlas.Proofs.Path.Stack
import SourceAtlas.Proofs.Resolve.Direct

namespace SourceAtlas

namespace Resolve

open SourceAtlas.Path Text

/-! ## Resolution without texts

`base` is the stack of the root and `dirs` the directories from there to the importer. -/

/-- The place that an ECMAScript specifier names: read from the importer's directory if it begins
with a dot, from the root if it begins with a slash. -/
def quotedStack? (base dirs : List (List Char)) (specifier : List Char) :
    Option (List (List Char)) :=
  match specifier with
  | '.' :: _ => some ((segments specifier).foldl readPart (base ++ dirs))
  | '/' :: _ => some ((segments specifier).foldl readPart base)
  | _ => none

/-- The number of dots that a Python name begins with. -/
def leadingDots (name : List Char) : Nat :=
  (name.takeWhile (· == '.')).length

/-- What stands between the dots of a Python name. -/
def dottedParts (name : List Char) : List (List Char) :=
  (pieces (· == '.') name).filter (!·.isEmpty)

/-- The places that a Python name names: the root's before the importer's if it has no leading dots,
and one place otherwise, to which every dot after the first leads up. -/
def dottedStacks (base dirs : List (List Char)) (name : List Char) : List (List (List Char)) :=
  match leadingDots name with
  | 0 => [base ++ dottedParts name, base ++ dirs ++ dottedParts name]
  | up + 1 => [(base ++ dirs).rdrop up ++ dottedParts name]

/-- The paths to probe for an ECMAScript place. -/
def quotedProbes (stack : List (List Char)) : List (List Char) :=
  stackPath stack :: Language.ecmascriptExtensions.map (fun ext => stackPath stack ++ ext.toList)
    ++ Language.ecmascriptExtensions.map fun ext =>
      stackPath (stack ++ [['i', 'n', 'd', 'e', 'x'] ++ ext.toList])

/-- The paths to probe for a Python place. -/
def dottedProbes (stack : List (List Char)) : List (List Char) :=
  Language.pythonExtensions.map (fun ext => stackPath stack ++ ext.toList)
    ++ [stackPath (stack ++ ["__init__.py".toList])]

/-- The paths to probe for a specifier, in order. -/
def probes (language : Language) (base dirs : List (List Char)) (specifier : List Char) :
    List (List Char) :=
  match language with
  | .ecmascript => (quotedStack? base dirs specifier).toList.flatMap quotedProbes
  | .python => (dottedStacks base dirs specifier).flatMap dottedProbes
  | .none => []

/-- The last of the files whose absolute path is the probe, up to letter case. -/
def lastAt? (base : List (List Char)) (files : List String) (probe : List Char) : Option String :=
  files.reverse.find? fun file =>
    lowerChars (stackPath (base ++ segments file.toList)) == lowerChars probe

/-- What a specifier stands for: the last file at the first probe at which there is one. -/
def answer? (language : Language) (base dirs : List (List Char)) (files : List String)
    (specifier : List Char) : Option String :=
  (probes language base dirs specifier).findSome? (lastAt? base files)

/-! ## Places -/

variable {base dirs stack : List (List Char)} {language : Language} {specifier name : List Char}

/-- A path under a place is read part by part from there, unless it begins with a slash. -/
theorem under_stackPath (hstack : ∀ s ∈ stack, IsPlain s) {c : Char} (hc : c ≠ '/')
    (rest : List Char) :
    under (stackPath stack) (c :: rest) =
      stackPath ((segments (c :: rest)).foldl readPart stack) := by
  have hhead : (segments (c :: rest)).head? ≠ some [] :=
    head?_pieces_ne_nil (by simpa using hc) rest
  have hunder := under_plain (Or.inl rfl) hstack (fun s hs => slash_not_mem_of_mem_segments hs)
    (segments_ne_nil (c :: rest)) hhead
  rwa [joined_segments, collapse_append hstack] at hunder

/-- **Going up takes segments off.** -/
theorem ascend_stackPath (hstack : ∀ s ∈ stack, IsPlain s) (up : Nat) :
    ascend (stackPath stack) up = stackPath (stack.rdrop up) := by
  induction up generalizing stack with
  | zero => rw [ascend, List.rdrop_zero]
  | succ up ih =>
      have hbelow : ∀ s ∈ stack.dropLast, IsPlain s :=
        fun s hs => hstack s (List.mem_of_mem_dropLast hs)
      rw [ascend, parentChars_stackPath hstack, ih hbelow]
      congr 1
      simp only [List.rdrop, List.dropLast_eq_take, List.take_take, List.length_take]
      congr 1
      omega

theorem plain_rdrop (hstack : ∀ s ∈ stack, IsPlain s) (up : Nat) :
    ∀ s ∈ stack.rdrop up, IsPlain s :=
  fun s hs => hstack s (List.mem_of_mem_take hs)

/-- What is between dots is a name or nothing. -/
theorem plain_of_mem_pieces (hslash : '/' ∉ name) (hback : '\\' ∉ name) {part : List Char}
    (hpart : part ∈ pieces (· == '.') name) (hne : part ≠ []) : IsPlain part := by
  have hmem : ∀ c ∈ part, c ∈ name ∧ c ≠ '.' := by
    intro c hc
    obtain ⟨hname, hcut⟩ := mem_of_mem_pieces hpart hc
    exact ⟨hname, by simpa using hcut⟩
  refine ⟨hne, ?_, ?_, fun h => hslash (hmem _ h).1, fun h => hback (hmem _ h).1⟩
  · rintro rfl
    exact (hmem '.' List.mem_cons_self).2 rfl
  · rintro rfl
    exact (hmem '.' List.mem_cons_self).2 rfl

theorem plain_dottedParts (hslash : '/' ∉ name) (hback : '\\' ∉ name) :
    ∀ s ∈ dottedParts name, IsPlain s := by
  intro s hs
  obtain ⟨hpiece, hne⟩ := List.mem_filter.mp hs
  exact plain_of_mem_pieces hslash hback hpiece (by simpa using hne)

/-- **A dotted name under a place puts its parts on.** -/
theorem under_modulePath (hstack : ∀ s ∈ stack, IsPlain s) (hslash : '/' ∉ name)
    (hback : '\\' ∉ name) {c : Char} {rest : List Char} (hname : name = c :: rest) (hc : c ≠ '.') :
    under (stackPath stack) (modulePath name) = stackPath (stack ++ dottedParts name) := by
  have hpath : modulePath name = c :: modulePath rest := by
    subst hname
    simp [modulePath, replaceChar, hc]
  -- the dots become the slashes of the path, so its parts are what stands between the dots
  have hsegments : segments (modulePath name) = pieces (· == '.') name :=
    pieces_replaceChar hslash
  have hcslash : c ≠ '/' := by
    rintro rfl
    exact hslash (hname ▸ List.mem_cons_self)
  rw [hpath, under_stackPath hstack hcslash, ← hpath, hsegments,
    foldl_readPart_names (fun s hs hne => plain_of_mem_pieces hslash hback hs hne)]
  rfl

/-! ## Candidates -/

theorem joinChars_segment (hstack : ∀ s ∈ stack, IsPlain s) {segment : List Char}
    (hslash : '/' ∉ segment) (hne : segment ≠ []) :
    joinChars (stackPath stack) segment = stackPath (stack ++ [segment]) := by
  have hslashes : ∀ s ∈ [segment], '/' ∉ s := by simpa using hslash
  have hjoin := joinChars_stackPath hstack hslashes (List.cons_ne_nil _ _) (by simpa using hne)
  have hone : joined [segment] = segment := List.intercalate_singleton
  rwa [hone] at hjoin

theorem quotedCandidates_stackPath (hstack : ∀ s ∈ stack, IsPlain s) :
    quotedCandidates (stackPath stack) = quotedProbes stack := by
  have hindex : ∀ ext ∈ Language.ecmascriptExtensions,
      joinChars (stackPath stack) (['i', 'n', 'd', 'e', 'x'] ++ ext.toList) =
        stackPath (stack ++ [['i', 'n', 'd', 'e', 'x'] ++ ext.toList]) := by
    intro ext hext
    have hclean : ∀ ext ∈ Language.ecmascriptExtensions,
        '/' ∉ ['i', 'n', 'd', 'e', 'x'] ++ ext.toList := by
      decide
    exact joinChars_segment hstack (hclean ext hext) (List.cons_ne_nil _ _)
  unfold quotedCandidates quotedProbes
  rw [List.map_congr_left hindex]

theorem dottedCandidates_stackPath (hstack : ∀ s ∈ stack, IsPlain s) :
    dottedCandidates (stackPath stack) = dottedProbes stack := by
  unfold dottedCandidates dottedProbes
  rw [joinChars_segment hstack (by decide) (by decide)]

/-- **The candidates of an ECMAScript specifier are its probes.** -/
theorem candidates_ecmascript {root importer : List Char} (hroot : root = stackPath base)
    (hhome : parentChars (slashed importer) = stackPath (base ++ dirs))
    (hplain : ∀ s ∈ base ++ dirs, IsPlain s) (hback : '\\' ∉ specifier) :
    candidates .ecmascript root importer specifier = probes .ecmascript base dirs specifier := by
  have hbase : ∀ s ∈ base, IsPlain s := fun s hs => hplain s (List.mem_append_left dirs hs)
  have hparts : ∀ s ∈ segments specifier, '/' ∉ s ∧ '\\' ∉ s := fun s hs =>
    ⟨slash_not_mem_of_mem_segments hs, fun h => hback (mem_of_mem_segments hs h)⟩
  cases specifier with
  | nil => rfl
  | cons c rest =>
      by_cases hdot : c = '.'
      · subst hdot
        have hread := plain_foldl_readPart hplain hparts
        show quotedCandidates (under (parentChars (slashed importer)) ('.' :: rest)) =
          quotedProbes ((segments ('.' :: rest)).foldl readPart (base ++ dirs)) ++ []
        rw [hhome, under_stackPath hplain (by decide), quotedCandidates_stackPath hread,
          List.append_nil]
      · by_cases htop : c = '/'
        · subst htop
          have hread := plain_foldl_readPart hbase hparts
          -- the dot that is put in front makes the specifier a relative path and is passed over
          have hskip : (segments ('.' :: '/' :: rest)).foldl readPart base =
              (segments ('/' :: rest)).foldl readPart base := rfl
          show quotedCandidates (under root ('.' :: '/' :: rest)) =
            quotedProbes ((segments ('/' :: rest)).foldl readPart base) ++ []
          rw [hroot, under_stackPath hbase (by decide), hskip, quotedCandidates_stackPath hread,
            List.append_nil]
        · simp [candidates, probes, quotedStack?, hdot, htop]

theorem dottedCandidates_under (hstack : ∀ s ∈ stack, IsPlain s) (hslash : '/' ∉ name)
    (hback : '\\' ∉ name) {c : Char} {rest : List Char} (hname : name = c :: rest) (hc : c ≠ '.') :
    dottedCandidates (under (stackPath stack) (modulePath name)) =
      dottedProbes (stack ++ dottedParts name) := by
  rw [under_modulePath hstack hslash hback hname hc]
  exact dottedCandidates_stackPath
    (List.forall_mem_append.mpr ⟨hstack, plain_dottedParts hslash hback⟩)

theorem dottedParts_dropWhile (name : List Char) :
    dottedParts (name.dropWhile (· == '.')) = dottedParts name := by
  induction name with
  | nil => rfl
  | cons c rest ih =>
      by_cases hc : (c == '.') = true
      · rw [List.dropWhile_cons_of_pos (p := (· == '.')) hc, ih]
        unfold dottedParts
        rw [pieces, if_pos hc]
        rfl
      · rw [List.dropWhile_cons_of_neg (p := (· == '.')) hc]

theorem length_sub_dropWhile (name : List Char) :
    name.length - (name.dropWhile (· == '.')).length = leadingDots name := by
  have hsplit := List.takeWhile_append_dropWhile (p := (· == '.')) (l := name)
  have hlength := congrArg List.length hsplit
  rw [List.length_append] at hlength
  unfold leadingDots
  omega

/-- What is behind the leading dots of a name, if anything is, is a dotted name. -/
theorem dottedCandidates_behind (hstack : ∀ s ∈ stack, IsPlain s) (hslash : '/' ∉ name)
    (hback : '\\' ∉ name) :
    dottedCandidates
        (if (name.dropWhile (· == '.')).isEmpty then normal (stackPath stack)
          else under (stackPath stack) (modulePath (name.dropWhile (· == '.')))) =
      dottedProbes (stack ++ dottedParts name) := by
  rw [← dottedParts_dropWhile]
  have hsub : ∀ c ∈ name.dropWhile (· == '.'), c ∈ name :=
    fun c hc => (List.dropWhile_sublist _).subset hc
  cases hbehind : name.dropWhile (· == '.') with
  | nil =>
      have hparts : dottedParts [] = [] := rfl
      rw [List.isEmpty_nil, if_pos rfl, normal_stackPath hstack, hparts, List.append_nil,
        dottedCandidates_stackPath hstack]
  | cons c rest =>
      rw [hbehind] at hsub
      have hhead : c ∈ (name.dropWhile (· == '.')).head? := by
        rw [hbehind]
        rfl
      have hstop := eq_false_of_mem_head?_dropWhile hhead
      rw [List.isEmpty_cons, if_neg Bool.false_ne_true]
      exact dottedCandidates_under hstack (fun h => hslash (hsub _ h)) (fun h => hback (hsub _ h))
        rfl (by simpa using hstop)

/-- **The candidates of a Python name are its probes.** -/
theorem candidates_python {root importer : List Char} (hroot : root = stackPath base)
    (hhome : parentChars (slashed importer) = stackPath (base ++ dirs))
    (hplain : ∀ s ∈ base ++ dirs, IsPlain s) (hne : name ≠ []) (hslash : '/' ∉ name)
    (hback : '\\' ∉ name) :
    candidates .python root importer name = probes .python base dirs name := by
  have hbase : ∀ s ∈ base, IsPlain s := fun s hs => hplain s (List.mem_append_left dirs hs)
  obtain ⟨c, rest, rfl⟩ := List.exists_cons_of_ne_nil hne
  by_cases hc : c = '.'
  · subst hc
    have hdots : leadingDots ('.' :: rest) = leadingDots rest + 1 := by
      simp [leadingDots]
    have hparts : dottedParts ('.' :: rest) = dottedParts rest := rfl
    have hcut := plain_rdrop hplain (leadingDots rest)
    -- the first dot is the importer's directory, and each further one leads up from there
    unfold candidates probes dottedStacks
    simp only [length_sub_dropWhile, hhome, hdots, ascend_stackPath hplain, List.flatMap_singleton]
    rw [hparts]
    exact dottedCandidates_behind hcut (fun h => hslash (List.mem_cons_of_mem _ h))
      (fun h => hback (List.mem_cons_of_mem _ h))
  · have hdots : leadingDots (c :: rest) = 0 := by
      simp [leadingDots, hc]
    unfold probes dottedStacks
    rw [candidates_absolute hc, hroot, hhome, hdots,
      dottedCandidates_under hbase hslash hback rfl hc,
      dottedCandidates_under hplain hslash hback rfl hc]
    simp

/-- Two dots lead one directory up from the importer's, and three names are probed there. -/
example : probes .python [['p']] [['a'], ['b']] "..x.y".toList =
    ["/p/a/x/y.py".toList, "/p/a/x/y.pyw".toList, "/p/a/x/y/__init__.py".toList] := by decide

/-! ## Probes -/

theorem keyChars_append (hstack : ∀ s ∈ stack, IsPlain s) {ending : List Char}
    (hending : IsEnding ending) :
    keyChars (stackPath stack ++ ending) = lowerChars (stackPath stack ++ ending) := by
  obtain ⟨other, hother, heq⟩ := exists_stackPath_append hstack hending
  rw [heq, keyChars_stackPath hother]

theorem keyChars_concat (hstack : ∀ s ∈ stack, IsPlain s) {segment : List Char}
    (hsegment : IsPlain segment) :
    keyChars (stackPath (stack ++ [segment])) = lowerChars (stackPath (stack ++ [segment])) := by
  apply keyChars_stackPath
  exact List.forall_mem_append.mpr ⟨hstack, List.forall_mem_singleton.mpr hsegment⟩

theorem keyChars_quotedProbes (hstack : ∀ s ∈ stack, IsPlain s) :
    ∀ probe ∈ quotedProbes stack, keyChars probe = lowerChars probe := by
  intro probe hprobe
  have hendings : ∀ ext ∈ Language.ecmascriptExtensions,
      IsEnding ext.toList ∧ IsPlain (['i', 'n', 'd', 'e', 'x'] ++ ext.toList) := by
    decide
  unfold quotedProbes at hprobe
  simp only [List.cons_append, List.mem_cons, List.mem_append, List.mem_map] at hprobe
  rcases hprobe with rfl | ⟨ext, hext, rfl⟩ | ⟨ext, hext, rfl⟩
  · exact keyChars_stackPath hstack
  · exact keyChars_append hstack (hendings ext hext).1
  · exact keyChars_concat hstack (hendings ext hext).2

theorem keyChars_dottedProbes (hstack : ∀ s ∈ stack, IsPlain s) :
    ∀ probe ∈ dottedProbes stack, keyChars probe = lowerChars probe := by
  intro probe hprobe
  have hendings : ∀ ext ∈ Language.pythonExtensions, IsEnding ext.toList := by
    decide
  unfold dottedProbes at hprobe
  simp only [List.mem_append, List.mem_map, List.mem_singleton] at hprobe
  rcases hprobe with ⟨ext, hext, rfl⟩ | rfl
  · exact keyChars_append hstack (hendings ext hext)
  · exact keyChars_concat hstack (by decide)

/-- **Where a specifier is looked up, its probes are compared in lower case only.** -/
theorem keyChars_probes (hplain : ∀ s ∈ base ++ dirs, IsPlain s) (hback : '\\' ∉ specifier)
    (hpython : language = .python → '/' ∉ specifier) :
    ∀ probe ∈ probes language base dirs specifier, keyChars probe = lowerChars probe := by
  have hbase : ∀ s ∈ base, IsPlain s := fun s hs => hplain s (List.mem_append_left dirs hs)
  intro probe hprobe
  cases language with
  | ecmascript =>
      obtain ⟨stack, hstack, hprobe⟩ := List.mem_flatMap.mp hprobe
      have hparts : ∀ s ∈ segments specifier, '/' ∉ s ∧ '\\' ∉ s := fun s hs =>
        ⟨slash_not_mem_of_mem_segments hs, fun h => hback (mem_of_mem_segments hs h)⟩
      refine keyChars_quotedProbes ?_ probe hprobe
      rw [Option.mem_toList] at hstack
      unfold quotedStack? at hstack
      split at hstack
      · cases hstack
        exact plain_foldl_readPart hplain hparts
      · cases hstack
        exact plain_foldl_readPart hbase hparts
      · cases hstack
  | python =>
      obtain ⟨stack, hstack, hprobe⟩ := List.mem_flatMap.mp hprobe
      have hput : ∀ {below : List (List Char)}, (∀ s ∈ below, IsPlain s) →
          ∀ s ∈ below ++ dottedParts specifier, IsPlain s := fun hbelow =>
        List.forall_mem_append.mpr ⟨hbelow, plain_dottedParts (hpython rfl) hback⟩
      refine keyChars_dottedProbes ?_ probe hprobe
      unfold dottedStacks at hstack
      split at hstack
      · rcases List.mem_pair.mp hstack with rfl | rfl
        · exact hput hbase
        · exact hput hplain
      · rw [List.mem_singleton.mp hstack]
        exact hput (plain_rdrop hplain _)
  | none => exact absurd hprobe List.not_mem_nil

end Resolve

/-! ## Files -/

open Resolve

section

open SourceAtlas.Path Text

variable {base : List (List Char)} {root : String}

/-- A path under the root, as the path of a place. -/
theorem joinChars_root (hroot : root.toList = stackPath base) (hbase : ∀ s ∈ base, IsPlain s)
    {path : String} (hpath : ∀ s ∈ segments path.toList, IsPlain s) :
    (Path.join root path).toList = stackPath (base ++ segments path.toList) := by
  have hjoin := joinChars_stackPath hbase (fun s hs => (hpath s hs).2.2.2.1)
    (segments_ne_nil path.toList) (head?_ne_nil_of_plain hpath)
  unfold Path.join
  rw [String.toList_ofList, hroot, ← hjoin, joined_segments]

/-- The directory of a file under the root. -/
theorem parentChars_join (hroot : root.toList = stackPath base) (hbase : ∀ s ∈ base, IsPlain s)
    {path : String} (hpath : ∀ s ∈ segments path.toList, IsPlain s) :
    parentChars (slashed (Path.join root path).toList) =
      stackPath (base ++ (segments path.toList).dropLast) := by
  have hall : ∀ s ∈ base ++ segments path.toList, IsPlain s :=
    List.forall_mem_append.mpr ⟨hbase, hpath⟩
  rw [joinChars_root hroot hbase hpath, slashed_stackPath hall, parentChars_stackPath hall,
    List.dropLast_append_of_ne_nil (segments_ne_nil _)]

theorem find?_eq_lastAt? (hroot : root.toList = stackPath base) (hbase : ∀ s ∈ base, IsPlain s)
    {files : List String} (hfiles : ∀ file ∈ files, ∀ s ∈ segments file.toList, IsPlain s)
    {probe : List Char} (hprobe : keyChars probe = lowerChars probe) :
    (PathIndex.ofFiles root files).find? (String.ofList (keyChars probe)) =
      lastAt? base files probe := by
  rw [PathIndex.find?_ofFiles_last]
  refine List.find?_congr fun file hfile => ?_
  have hplain := hfiles file (List.mem_reverse.mp hfile)
  have hall : ∀ s ∈ base ++ segments file.toList, IsPlain s :=
    List.forall_mem_append.mpr ⟨hbase, hplain⟩
  have hkey : Path.key (Path.join root file) =
      String.ofList (lowerChars (stackPath (base ++ segments file.toList))) := by
    unfold Path.key
    rw [joinChars_root hroot hbase hplain, keyChars_stackPath hall]
  rw [hkey, hprobe, Bool.eq_iff_iff, beq_iff_eq, beq_iff_eq]
  exact ⟨String.ofList_injective, congrArg String.ofList⟩

end

/-- **What a specifier resolves to is what its places say**: under a root in normal form with one
slash in front, among files whose paths are of plain segments, for every importer among them and
every specifier without a backslash that a text in its language can hold. -/
theorem resolve?_eq_answer? (root : String) (files : List TrackedFile) (importer : TrackedFile)
    (text : List Char) (specifier : String) (hanchor : Path.anchor root.toList = ['/'])
    (hnormal : Path.normal root.toList = root.toList) (hroot : '\\' ∉ root.toList)
    (hfiles : ∀ file ∈ files, ∀ s ∈ Path.segments file.path.toList, Path.IsPlain s)
    (himporter : importer ∈ files) (hspecifier : specifier ∈ specifiersOf importer.language text)
    (hback : '\\' ∉ specifier.toList) :
    resolve? (PathIndex.ofFiles root (files.map (·.path))) root (Path.join root importer.path)
        importer.language specifier =
      answer? importer.language (Path.tidySegments root.toList)
        (Path.segments importer.path.toList).dropLast (files.map (·.path)) specifier.toList := by
  obtain ⟨hbase, hstack⟩ := Path.stackPath_of_normal hanchor hnormal hroot
  have hpath := hfiles importer himporter
  have hplain : ∀ s ∈ Path.tidySegments root.toList ++
      (Path.segments importer.path.toList).dropLast, Path.IsPlain s :=
    List.forall_mem_append.mpr ⟨hbase, fun s hs => hpath s (List.mem_of_mem_dropLast hs)⟩
  have hhome := parentChars_join hstack hbase hpath
  have hname : importer.language = .python →
      specifier.toList ≠ [] ∧ '/' ∉ specifier.toList := by
    intro hpython
    rw [hpython] at hspecifier
    exact Extract.isName_of_mem_specifiersOf hspecifier
  have hcandidates : candidates importer.language root.toList
      (Path.join root importer.path).toList specifier.toList =
        probes importer.language (Path.tidySegments root.toList)
          (Path.segments importer.path.toList).dropLast specifier.toList := by
    cases hlanguage : importer.language with
    | ecmascript => exact candidates_ecmascript hstack hhome hplain hback
    | python =>
        obtain ⟨hne, hslash⟩ := hname hlanguage
        exact candidates_python hstack hhome hplain hne hslash hback
    | none => simp [candidates, probes]
  have hpaths : ∀ path ∈ files.map (·.path), ∀ s ∈ Path.segments path.toList, Path.IsPlain s := by
    intro path hmem
    obtain ⟨file, hfile, rfl⟩ := List.mem_map.mp hmem
    exact hfiles file hfile
  unfold resolve? answer?
  rw [hcandidates]
  refine findSome?_congr fun probe hprobe => ?_
  exact find?_eq_lastAt? hstack hbase hpaths
    (keyChars_probes hplain hback (fun hpython => (hname hpython).2) probe hprobe)

/-- Two files that a specifier names but for letter case, and the index file of a folder of that
name. -/
def crowdedFiles : List TrackedFile :=
  [⟨"src/ui/app.ts", ".ts", 3, [], []⟩, ⟨"lib/view.ts", ".ts", 5, [], []⟩,
    ⟨"lib/View.ts", ".ts", 7, [], []⟩, ⟨"lib/view/index.ts", ".ts", 11, [], []⟩]

/-- A module that goes up too far and comes down with doubled slashes and dots. -/
def wanderingText : List Char :=
  "import '../../../..//p/lib/./gone/../VIEW'".toList

theorem resolve?_eq_answer?_crowdedFiles :
    Path.anchor "/p".toList = ['/'] ∧ Path.normal "/p".toList = "/p".toList ∧
      '\\' ∉ "/p".toList ∧
      (∀ file ∈ crowdedFiles, ∀ s ∈ Path.segments file.path.toList, Path.IsPlain s) ∧
      ⟨"src/ui/app.ts", ".ts", 3, [], []⟩ ∈ crowdedFiles ∧
      "../../../..//p/lib/./gone/../VIEW" ∈ specifiersOf .ecmascript wanderingText ∧
      '\\' ∉ "../../../..//p/lib/./gone/../VIEW".toList ∧
      resolve? (PathIndex.ofFiles "/p" (crowdedFiles.map (·.path))) "/p"
          (Path.join "/p" "src/ui/app.ts") (Language.ofExtension ".ts")
          "../../../..//p/lib/./gone/../VIEW" =
        answer? (Language.ofExtension ".ts") [['p']] [['s', 'r', 'c'], ['u', 'i']]
          (crowdedFiles.map (·.path)) "../../../..//p/lib/./gone/../VIEW".toList ∧
      answer? (Language.ofExtension ".ts") [['p']] [['s', 'r', 'c'], ['u', 'i']]
          (crowdedFiles.map (·.path)) "../../../..//p/lib/./gone/../VIEW".toList =
        some "lib/View.ts" := by
  have hplain : ∀ file ∈ crowdedFiles, ∀ s ∈ Path.segments file.path.toList, Path.IsPlain s := by
    decide
  have hlanguage : Language.ofExtension ".ts" = .ecmascript := by
    decide +kernel
  have hspecifier : "../../../..//p/lib/./gone/../VIEW" ∈ specifiersOf .ecmascript wanderingText :=
    Text.mem_ofList_map_ofList.mpr (Extract.mem_quotedSpecifiers.mpr ⟨.bare, by decide⟩)
  refine ⟨by decide, by decide, by decide, hplain, List.mem_cons_self, hspecifier, by decide, ?_,
    by decide +kernel⟩
  exact resolve?_eq_answer? "/p" crowdedFiles ⟨"src/ui/app.ts", ".ts", 3, [], []⟩ wanderingText
    "../../../..//p/lib/./gone/../VIEW" (by decide) (by decide) (by decide) hplain
    List.mem_cons_self (by rw [TrackedFile.language, hlanguage]; exact hspecifier) (by decide)

end SourceAtlas
