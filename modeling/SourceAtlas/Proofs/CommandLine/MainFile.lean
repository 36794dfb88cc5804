/-
# SourceAtlas.Proofs.CommandLine.MainFile — the main file that a command line names.

A named main file is trimmed and gets slashes; an absolute path is first told from the root.  From a
spelling of a path this makes a text that still means the path (`mainFileFor_spelling`), and from
the absolute path of a file below the root the path itself (`mainFileFor_below`).  The options of a
command line hold what comes of it, whatever the settings say (`exists_optionsFor`).
-/
import SourceAtlas.CommandLine.Run
import SourceAtlas.Proofs.FileSystem.Settle
import SourceAtlas.Proofs.Settings.Recleaned

namespace SourceAtlas.CommandLine

open SourceAtlas.Path Text
open Entry (IsProper)

variable {host : Settings.Host} {fs : FileSystem} {arguments : Arguments}
  {root above path given file : String} {place names : List String}

/-! ## Relative paths -/

/-- Slashes for backslashes make no absolute path relative. -/
theorem isAbsolute_of_slashed {text : List Char} (h : isAbsolute (slashed text) = false) :
    isAbsolute text = false := by
  cases text with
  | nil => rfl
  | cons c rest =>
      refine Bool.eq_false_iff.mpr fun habsolute => ?_
      have hc : c = '/' := by simpa [isAbsolute] using habsolute
      subst hc
      exact Bool.false_ne_true h.symm

theorem isAbsolute_dots_append (count : Nat) {path : List Char} (h : isAbsolute path = false) :
    isAbsolute ((List.replicate count dotSlash).flatten ++ path) = false := by
  cases count with
  | zero => exact h
  | succ count => rfl

/-- **From a spelling of a path comes a text that means the path.** -/
theorem mainFileFor_spelling (h : Spelling path.toList given.toList) (hpath : IsMainFile path)
    (htight : Tight path.toList) (hrelative : isAbsolute path.toList = false) :
    ∃ file, mainFileFor fs root given = .ok file ∧ file ≠ "" ∧ spelledPath file = path := by
  obtain ⟨count, hslashed⟩ :=
    (h.means (by simpa using hpath.nonempty) htight hpath.direct).exists_slashed_trim
  have hfile : (withSlashes (trimmed given)).toList =
      (List.replicate count dotSlash).flatten ++ path.toList := by
    unfold withSlashes trimmed
    rw [String.toList_ofList, String.toList_ofList, hslashed]
  -- the `./` in front stay, and the last reading drops them
  refine ⟨withSlashes (trimmed given), ?_, ?_, ?_⟩
  · have hfound : isAbsolute (trimmed given).toList = false := by
      apply isAbsolute_of_slashed
      unfold trimmed
      rw [String.toList_ofList, hslashed]
      exact isAbsolute_dots_append count hrelative
    unfold mainFileFor
    simp only [hfound, Bool.false_eq_true, if_false]
    rfl
  · intro hempty
    rw [hempty] at hfile
    exact hpath.nonempty (String.toList_injective (List.append_eq_nil_iff.mp hfile.symm).2)
  · -- the text is a spelling of the path itself
    have hspelling : Spelling path.toList (withSlashes (trimmed given)).toList := by
      refine ⟨[], List.replicate count dotSlash, path.toList, [], List.forall_mem_nil _,
        List.forall_mem_nil _, ?_, replaceChar_of_not_mem hpath.slashed, ?_⟩
      · exact fun mark hmark => Or.inl (List.eq_of_mem_replicate hmark)
      · rw [hfile, List.nil_append, List.append_nil]
    exact hspelling.spelledPath hpath.nonempty htight hpath.direct

/-! ## Absolute paths -/

/-- A path behind an absolute one stands behind some text that begins with a slash. -/
theorem exists_joinChars_eq {base path : List Char} (habsolute : isAbsolute base = true)
    (hrelative : isAbsolute path = false) :
    ∃ front, joinChars base path = front ++ path ∧ front.head? = some '/' := by
  have hhead : base.head? = some '/' := eq_of_beq habsolute
  obtain ⟨rest, rfl⟩ := List.head?_eq_some_iff.mp hhead
  unfold joinChars
  rw [hrelative, if_neg Bool.false_ne_true]
  split
  · exact ⟨_, rfl, rfl⟩
  · exact ⟨'/' :: rest ++ ['/'], by simp, rfl⟩

/-- **From the absolute path of a file below the root comes its path**, whichever absolute path of
the root stands in front. -/
theorem mainFileFor_below (hroot : fs.settle root = .ok place)
    (habsolute : isAbsolute above.toList = true) (habove : fs.settle above = .ok place)
    (hplace : ∀ name ∈ place, IsProper name) (hnames : ∀ name ∈ names, IsProper name)
    (hne : names ≠ []) (hstands : fs.top.Stands (place ++ names))
    (hpath : "/".intercalate names = path) (hgiven : path ≠ "") (hslashed : '\\' ∉ path.toList)
    (htight : Tight path.toList) : mainFileFor fs root (join above path) = .ok path := by
  have hrelative : isAbsolute path.toList = false :=
    hpath ▸ FileSystem.isAbsolute_intercalate hnames
  have hjoined : isAbsolute (join above path).toList = true := by
    unfold join
    rw [String.toList_ofList]
    exact isAbsolute_joinChars habsolute
  -- the path begins with a slash and ends as the tracked path does, so trimming leaves it alone
  have htrimmed : trimmed (join above path) = join above path := by
    obtain ⟨front, hfront, hhead⟩ := exists_joinChars_eq habsolute hrelative
    have hwhole : Tight (joinChars above.toList path.toList) := by
      rw [hfront]
      refine tight_append ?_ htight (by simpa using hgiven)
      intro c hc
      rw [hhead] at hc
      cases hc
      decide
    unfold trimmed join
    rw [String.toList_ofList, trim_eq_self_iff.mpr hwhole]
  have hsettled : fs.settle (join above path) = .ok (place ++ names) :=
    hpath ▸ FileSystem.settle_join habsolute habove hnames hstands
  have hback : withSlashes path = path := by
    unfold withSlashes
    rw [slashed, replaceChar_of_not_mem hslashed, String.ofList_toList]
  unfold mainFileFor
  simp only [htrimmed, hjoined, if_true, hsettled, hroot,
    FileSystem.relativeTo_pathOf _ hplace hnames hne, hpath]
  show Except.ok (withSlashes path) = _
  rw [hback]

/-! ## Options -/

/-- **The options of a command line hold the main file that it names.** -/
theorem exists_optionsFor {base : ScanOptions} {warnings : List Warning}
    (hbase : settingsFor host fs arguments = .ok (base, warnings))
    (hgiven : arguments.mainFile? = some given) (hne : given ≠ "")
    (hfile : mainFileFor fs arguments.root given = .ok file) :
    ∃ options, optionsFor host fs arguments = .ok (options, warnings) ∧
      options.mainFile = some file := by
  have hfilter : arguments.mainFile?.filter (!·.isEmpty) = some given := by
    rw [hgiven, Option.filter_some, if_pos (by simpa using hne)]
  unfold optionsFor
  simp only [hbase, hfilter, hfile]
  exact ⟨_, rfl, rfl⟩

end SourceAtlas.CommandLine
