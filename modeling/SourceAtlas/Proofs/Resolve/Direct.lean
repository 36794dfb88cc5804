/-
# SourceAtlas.Proofs.Resolve.Direct — specifiers that spell out the path of a file.

Every tracked file can be named from every other one: an ECMAScript importer climbs to the root and
goes down the path of the target (`climb`), a Python importer writes the target's path with dots for
slashes and without its suffix (`moduleName`).  Both specifiers have the target itself as their
first candidate, so no other file can come before it (`resolve?_climb`, `resolve?_moduleName`).
-/
import SourceAtlas.Proofs.Path.Normal
import SourceAtlas.Resolve

namespace SourceAtlas

namespace Resolve

open SourceAtlas.Path

/-! ## Specifiers that spell out a path -/

/-- One `../` per directory of a path, or `./` if it has none. -/
def climb (path : List Char) : List Char :=
  match (segments path).length - 1 with
  | 0 => ['.', '/']
  | n + 1 => (List.replicate (n + 1) ['.', '.', '/']).flatten

/-- The dotted name of a Python file: its path without `.py`, with dots for slashes. -/
def moduleName (path : List Char) : List Char :=
  Text.replaceChar '/' '.' (path.take (path.length - 3))

theorem moduleName_append {path stem : List Char} (h : path = stem ++ ['.', 'p', 'y']) :
    moduleName path = Text.replaceChar '/' '.' stem := by
  unfold moduleName
  rw [h, List.length_append]
  congr 1
  exact List.take_left' (by simp)

/-- Climbing is written with dots and slashes only. -/
theorem mem_climb {path : List Char} {c : Char} (h : c ∈ climb path) : c = '.' ∨ c = '/' := by
  unfold climb at h
  split at h
  · simpa using h
  · obtain ⟨step, hstep, hc⟩ := List.mem_flatten.mp h
    rw [List.eq_of_mem_replicate hstep] at hc
    simpa using hc

/-- The segments of a specifier that climbs. -/
def climbSegments : Nat → List (List Char)
  | 0 => [dot]
  | n + 1 => List.replicate (n + 1) dotDot

theorem climb_append (path target : List Char) :
    climb path ++ target =
      joined (climbSegments ((segments path).length - 1) ++ segments target) := by
  have hup : ∀ n : Nat, (List.replicate (n + 1) ['.', '.', '/']).flatten ++ target =
      joined (List.replicate (n + 1) dotDot ++ segments target) := by
    intro n
    induction n with
    | zero =>
        rw [joined_append (by simp) (segments_ne_nil target), joined_segments]
        simp [joined, dotDot]
    | succ n ih =>
        have hne : List.replicate (n + 1) dotDot ++ segments target ≠ [] := by simp
        rw [List.replicate_succ, List.flatten_cons, List.append_assoc, ih]
        show dotDot ++ '/' :: joined (List.replicate (n + 1) dotDot ++ segments target) =
          joined ([dotDot] ++ (List.replicate (n + 1) dotDot ++ segments target))
        rw [joined_append (List.cons_ne_nil dotDot []) hne]
        simp [joined]
  unfold climb
  cases (segments path).length - 1 with
  | zero =>
      show ['.', '/'] ++ target = joined ([dot] ++ segments target)
      rw [joined_append (by simp) (segments_ne_nil target), joined_segments]
      simp [joined, dot]
  | succ n => exact hup n

theorem climbSegments_facts (n : Nat) :
    (∀ s ∈ climbSegments n, '/' ∉ s) ∧ climbSegments n ≠ [] ∧
      ∀ rest, (climbSegments n ++ rest).head? ≠ some [] := by
  cases n with
  | zero =>
      refine ⟨?_, by simp [climbSegments], fun rest => by simp [climbSegments, dot]⟩
      intro s hs
      rw [List.mem_singleton.mp hs]
      decide
  | succ n =>
      refine ⟨?_, by simp [climbSegments], fun rest => ?_⟩
      · intro s hs
        rw [List.eq_of_mem_replicate hs]
        decide
      · simp [climbSegments, List.replicate_succ, dotDot]

theorem collapse_climbSegments {absolute : Bool} {base down target : List (List Char)}
    (hbase : ∀ s ∈ base, IsPlain s) (hdown : ∀ s ∈ down, IsPlain s)
    (htarget : ∀ s ∈ target, IsPlain s) :
    collapse absolute (base ++ down ++ (climbSegments down.length ++ target)) = base ++ target := by
  cases hlength : down.length with
  | zero =>
      have hall : ∀ s ∈ base ++ target, IsPlain s := by
        intro s hs
        rcases List.mem_append.mp hs with hs | hs
        · exact hbase s hs
        · exact htarget s hs
      rw [List.length_eq_zero_iff.mp hlength, List.append_nil]
      show collapse absolute (base ++ dot :: target) = base ++ target
      rw [collapse_dot, collapse_plain hall]
  | succ n =>
      have h := collapse_climb absolute hbase hdown htarget
      rw [hlength] at h
      exact h

/-! ## Where they lead -/

variable {front : List Char} {base : List (List Char)}

/-- A specifier under a directory runs through the stack machine. -/
theorem under_plain {ys : List (List Char)} (hfront : IsFront front)
    (hbase : ∀ s ∈ base, IsPlain s) (hys : ∀ s ∈ ys, '/' ∉ s) (hne : ys ≠ [])
    (hhead : ys.head? ≠ some []) :
    under (front ++ joined base) (joined ys) = front ++ joined (collapse true (base ++ ys)) := by
  have hall : ∀ s ∈ base ++ ys, '/' ∉ s := by
    intro s hs
    rcases List.mem_append.mp hs with hs | hs
    · exact (hbase s hs).2.2.2.1
    · exact hys s hs
  have hallHead : (base ++ ys).head? ≠ some [] := by
    cases base with
    | nil => exact hhead
    | cons b rest =>
        intro heq
        exact (hbase b List.mem_cons_self).1 (Option.some.inj heq)
  unfold under
  rw [slashed_of_plain hfront hbase, joinChars_plain hfront hbase hys hne hhead,
    normal_front hfront hall hallHead]

/-- **Climbing from an importer leads to the target under the root.** -/
theorem under_climb {importer target : List Char} (hfront : IsFront front)
    (hbase : ∀ s ∈ base, IsPlain s) (himporter : ∀ s ∈ segments importer, IsPlain s)
    (htarget : ∀ s ∈ segments target, IsPlain s) :
    under (parentChars (slashed (joinChars (front ++ joined base) importer)))
        (climb importer ++ target) =
      joinChars (front ++ joined base) target := by
  obtain ⟨down, name, hsegments⟩ := exists_segments_concat importer
  have hdown : ∀ s ∈ down, IsPlain s := by
    intro s hs
    apply himporter
    rw [hsegments]
    exact List.mem_append_left _ hs
  have hname : IsPlain name := by
    apply himporter
    rw [hsegments]
    simp
  have hbaseDown : ∀ s ∈ base ++ down, IsPlain s := by
    intro s hs
    rcases List.mem_append.mp hs with hs | hs
    · exact hbase s hs
    · exact hdown s hs
  have hjoin : ∀ path : List Char, (∀ s ∈ segments path, IsPlain s) →
      joinChars (front ++ joined base) path = front ++ joined (base ++ segments path) := by
    intro path hpath
    have h := joinChars_plain hfront hbase (fun s hs => slash_not_mem_of_mem_segments hs)
      (segments_ne_nil path) (head?_ne_nil_of_plain hpath)
    rwa [joined_segments] at h
  have hhome : parentChars (slashed (joinChars (front ++ joined base) importer)) =
      front ++ joined (base ++ down) := by
    have hall : ∀ s ∈ base ++ segments importer, IsPlain s := by
      intro s hs
      rcases List.mem_append.mp hs with hs | hs
      · exact hbase s hs
      · exact himporter s hs
    rw [hjoin importer himporter, slashed_of_plain hfront hall, hsegments, ← List.append_assoc,
      parentChars_plain hfront hbaseDown hname.2.2.2.1]
  have hcount : (segments importer).length - 1 = down.length := by
    rw [hsegments, List.length_append]
    simp
  obtain ⟨hslash, hne, hhead⟩ := climbSegments_facts down.length
  have hys : ∀ s ∈ climbSegments down.length ++ segments target, '/' ∉ s := by
    intro s hs
    rcases List.mem_append.mp hs with hs | hs
    · exact hslash s hs
    · exact slash_not_mem_of_mem_segments hs
  rw [hhome, climb_append, hcount, under_plain hfront hbaseDown hys (by simp [hne]) (hhead _),
    collapse_climbSegments hbase hdown htarget, hjoin target htarget]

/-- **A path without its suffix leads to the file under the root** once the suffix is put back. -/
theorem under_stem {stem : List Char} (suffix : List Char) (hfront : IsFront front)
    (hbase : ∀ s ∈ base, IsPlain s) (hstem : ∀ s ∈ segments stem, IsPlain s)
    (hsuffix : '/' ∉ suffix) :
    under (front ++ joined base) stem ++ suffix =
      joinChars (front ++ joined base) (stem ++ suffix) := by
  obtain ⟨dirs, last, hsegments⟩ := exists_segments_concat stem
  have hslash : ∀ s ∈ segments stem, '/' ∉ s := fun s hs => slash_not_mem_of_mem_segments hs
  have hall : ∀ s ∈ base ++ segments stem, IsPlain s := by
    intro s hs
    rcases List.mem_append.mp hs with hs | hs
    · exact hbase s hs
    · exact hstem s hs
  have hparts : stem ++ suffix = joined (dirs ++ [last ++ suffix]) := by
    rw [← joined_concat_append, ← hsegments, joined_segments]
  have hnew : ∀ s ∈ dirs ++ [last ++ suffix], '/' ∉ s := by
    intro s hs
    rw [hsegments] at hslash
    rcases List.mem_append.mp hs with hs | hs
    · exact hslash s (List.mem_append_left _ hs)
    · rw [List.mem_singleton.mp hs, List.mem_append, not_or]
      exact ⟨hslash last (by simp), hsuffix⟩
  have hnewHead : (dirs ++ [last ++ suffix]).head? ≠ some [] := by
    have hlast : last ≠ [] := by
      have hplain := hstem last (by rw [hsegments]; simp)
      exact hplain.1
    cases dirs with
    | nil => simp [hlast]
    | cons d rest =>
        intro heq
        have hplain := hstem d (by rw [hsegments]; simp)
        exact hplain.1 (Option.some.inj heq)
  have hunder := under_plain hfront hbase hslash (segments_ne_nil stem)
    (head?_ne_nil_of_plain hstem)
  rw [joined_segments, collapse_plain hall, hsegments, ← List.append_assoc] at hunder
  rw [hunder, hparts, joinChars_plain hfront hbase hnew (by simp) hnewHead, List.append_assoc,
    joined_concat_append, List.append_assoc]

end Resolve

/-! ## Resolution -/

open Resolve

variable {index : PathIndex} {root importer target : String}

/-- A file whose path under the root is the first candidate is the answer. -/
theorem resolve?_of_head {language : Language} {specifier : String}
    (hhead : (candidates language root.toList importer.toList specifier.toList).head? =
      some (Path.joinChars root.toList target.toList))
    (hfind : index.find? (Path.key (Path.join root target)) = some target) :
    resolve? index root importer language specifier = some target := by
  unfold Path.key Path.join at hfind
  rw [String.toList_ofList] at hfind
  unfold resolve?
  cases hcandidates : candidates language root.toList importer.toList specifier.toList with
  | nil =>
      rw [hcandidates] at hhead
      cases hhead
  | cons first more =>
      rw [hcandidates] at hhead
      rw [List.findSome?_cons, Option.some.inj hhead, hfind]

/-- **A specifier that climbs to the root and goes down to a file finds that file.** -/
theorem resolve?_climb (habs : Path.isAbsolute root.toList = true)
    (hnormal : Path.normal (Path.slashed root.toList) = root.toList)
    (himporter : ∀ s ∈ Path.segments importer.toList, Path.IsPlain s)
    (htarget : ∀ s ∈ Path.segments target.toList, Path.IsPlain s)
    (hfind : index.find? (Path.key (Path.join root target)) = some target) :
    resolve? index root (Path.join root importer) .ecmascript
      (String.ofList (climb importer.toList ++ target.toList)) = some target := by
  obtain ⟨front, base, hfront, hbase, hroot⟩ := Path.exists_plain_of_normal habs hnormal
  have hunder := under_climb hfront hbase himporter htarget
  have hdot : ∃ rest, climb importer.toList ++ target.toList = '.' :: rest := by
    unfold climb
    split
    · exact ⟨_, rfl⟩
    · exact ⟨_, rfl⟩
  obtain ⟨rest, hrest⟩ := hdot
  refine resolve?_of_head ?_ hfind
  rw [String.toList_ofList, hrest]
  show some (under (Path.parentChars (Path.slashed (Path.join root importer).toList))
    ('.' :: rest)) = _
  unfold Path.join
  rw [String.toList_ofList, ← hrest, hroot, hunder]

/-- A Python name without leading dots is tried from the root first. -/
theorem candidates_absolute {root importer rest : List Char} {c : Char} (hc : c ≠ '.') :
    candidates .python root importer (c :: rest) =
      dottedCandidates (under root (modulePath (c :: rest))) ++
        dottedCandidates (under (Path.parentChars (Path.slashed importer))
          (modulePath (c :: rest))) := by
  simp [candidates]

/-- **The dotted name of a Python file finds that file**, whoever imports it. -/
theorem resolve?_moduleName {stem : List Char} (habs : Path.isAbsolute root.toList = true)
    (hnormal : Path.normal (Path.slashed root.toList) = root.toList)
    (htarget : target.toList = stem ++ ['.', 'p', 'y'])
    (hstem : ∀ s ∈ Path.segments stem, Path.IsPlain s) (hdots : '.' ∉ stem)
    (hfind : index.find? (Path.key (Path.join root target)) = some target) :
    resolve? index root importer .python (String.ofList (moduleName target.toList)) =
      some target := by
  obtain ⟨front, base, hfront, hbase, hroot⟩ := Path.exists_plain_of_normal habs hnormal
  have hname := moduleName_append htarget
  have hpath : modulePath (Text.replaceChar '/' '.' stem) = stem :=
    Text.replaceChar_replaceChar hdots
  have hunder := under_stem ['.', 'p', 'y'] hfront hbase hstem (by decide)
  -- the name begins with the first character of the path, which is neither a slash nor a dot
  have hbegin : ∃ c rest, c ≠ '.' ∧ Text.replaceChar '/' '.' stem = c :: rest := by
    have hhead := Path.head?_joined_ne_slash
      (fun s hs => Path.slash_not_mem_of_mem_segments hs) (Path.head?_ne_nil_of_plain hstem)
    rw [Path.joined_segments] at hhead
    cases hcases : stem with
    | nil =>
        rw [hcases] at hstem
        exact absurd rfl (hstem [] (by decide)).1
    | cons c rest =>
        rw [hcases] at hhead hdots
        have hslash : c ≠ '/' := by simpa using hhead
        have hdot : c ≠ '.' := by
          intro heq
          exact hdots (heq ▸ List.mem_cons_self)
        refine ⟨c, Text.replaceChar '/' '.' rest, hdot, ?_⟩
        simp [Text.replaceChar, hslash]
  obtain ⟨c, rest, hc, hrest⟩ := hbegin
  have hfirst : under root.toList (modulePath (c :: rest)) ++ ['.', 'p', 'y'] =
      Path.joinChars root.toList target.toList := by
    rw [← hrest, hpath, hroot, hunder, htarget]
  refine resolve?_of_head ?_ hfind
  rw [String.toList_ofList, hname, hrest, ← hfirst]
  rw [candidates_absolute hc]
  rfl

end SourceAtlas
