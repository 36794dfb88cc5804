/-
# SourceAtlas.Proofs.Path.Spelling — the path that a configured text means.

A configured main file is read loosely: white space around it, backslashes for slashes and any
number of `./` in front are passed over.  `Means` says which path a text means by how the text is
put together, and reading a text finds exactly that path (`spelledPath_eq_iff`).  Every spelling of
a path in this manner means the path (`Spelling.spelledPath`).

Only one pass is made.  What stands behind a `./` may begin with white space, which is then part of
the path: the path that a text means need not mean itself (`spelledPath_eq_self_iff`).
-/
import SourceAtlas.Proofs.Path.Normal
import SourceAtlas.Rank

namespace SourceAtlas

open SourceAtlas.Path Text

/-! ## Texts and the paths that they mean -/

/-- The mark of the directory itself in front of a path. -/
def dotSlash : List Char := ['.', '/']

/-- **`Means text path`** — without the white space around it and with slashes, the text is the path
behind any number of `./`, and the path begins with no further one. -/
def Means (text path : List Char) : Prop :=
  ∃ before core after count, Blank before ∧ Tight core ∧ Blank after ∧
    text = before ++ core ++ after ∧
    slashed core = (List.replicate count dotSlash).flatten ++ path ∧ ¬ dotSlash <+: path

/-- **`Spelling path text`** — the text is the path, possibly with backslashes for some of its
slashes, with any number of `./` and `.\` in front of it and white space around. -/
def Spelling (path text : List Char) : Prop :=
  ∃ (before : List Char) (dots : List (List Char)) (body after : List Char),
    Blank before ∧ Blank after ∧ (∀ mark ∈ dots, mark = dotSlash ∨ mark = ['.', '\\']) ∧
    slashed body = path ∧ text = before ++ dots.flatten ++ body ++ after

/-! ## Leading `./` -/

theorem dropDotSlash_of_not_prefix {path : List Char} (h : ¬ dotSlash <+: path) :
    dropDotSlash path = path := by
  unfold dropDotSlash
  split
  · rename_i rest
    exact absurd (List.prefix_append dotSlash rest) h
  · rfl

/-- However many `./` stand in front, what is left is the path behind them. -/
theorem dropDotSlash_replicate (count : Nat) {path : List Char} (h : ¬ dotSlash <+: path) :
    dropDotSlash ((List.replicate count dotSlash).flatten ++ path) = path := by
  induction count with
  | zero => exact dropDotSlash_of_not_prefix h
  | succ count ih =>
      rw [List.replicate_succ, List.flatten_cons, List.append_assoc]
      exact ih

/-- Every text is what is left of it behind some `./`, and no further one is left. -/
theorem exists_eq_dropDotSlash (text : List Char) :
    ¬ dotSlash <+: dropDotSlash text ∧
      ∃ count, text = (List.replicate count dotSlash).flatten ++ dropDotSlash text := by
  fun_induction dropDotSlash text with
  | case1 rest ih =>
      obtain ⟨hnot, count, hrest⟩ := ih
      refine ⟨hnot, count + 1, ?_⟩
      rw [List.replicate_succ, List.flatten_cons, List.append_assoc, ← hrest]
      rfl
  | case2 text hne =>
      refine ⟨?_, 0, rfl⟩
      rintro ⟨rest, rfl⟩
      exact hne rest rfl

theorem dropDotSlash_suffix (text : List Char) : dropDotSlash text <:+ text := by
  obtain ⟨-, count, htext⟩ := exists_eq_dropDotSlash text
  exact ⟨_, htext.symm⟩

/-! ## Reading -/

/-- **Reading a text finds exactly the path that it means.** -/
theorem spelledPath_eq_iff {text path : String} :
    spelledPath text = path ↔ Means text.toList path.toList := by
  unfold spelledPath
  constructor
  · rintro rfl
    obtain ⟨before, after, hbefore, hafter, htight, htext⟩ := exists_eq_trim text.toList
    obtain ⟨hnot, count, hcore⟩ := exists_eq_dropDotSlash (slashed (trim text.toList))
    rw [String.toList_ofList]
    exact ⟨before, _, after, count, hbefore, htight, hafter, htext, hcore, hnot⟩
  · rintro ⟨before, core, after, count, hbefore, htight, hafter, htext, hcore, hnot⟩
    rw [htext, trim_append hbefore htight hafter, hcore, dropDotSlash_replicate count hnot,
      String.ofList_toList]

/-- No blank is a slash or a backslash, so slashes for backslashes leave the ends of a text. -/
theorem tight_of_tight_slashed {text : List Char} (h : Tight (slashed text)) : Tight text := by
  have hblank : ∀ c : Char, isBlank (if c == '\\' then '/' else c) = false → isBlank c = false := by
    intro c hc
    by_cases heq : c = '\\'
    · rw [heq]
      decide
    · rwa [if_neg (by simpa using heq)] at hc
  unfold slashed replaceChar at h
  constructor
  · intro c hc
    refine hblank c (h.1 _ ?_)
    rw [List.head?_map, Option.mem_def.mp hc]
    rfl
  · intro c hc
    refine hblank c (h.2 _ ?_)
    rw [List.getLast?_map, Option.mem_def.mp hc]
    rfl

/-- Marks of the directory itself with either separator are such marks with slashes. -/
theorem slashed_flatten_dots {dots : List (List Char)}
    (h : ∀ mark ∈ dots, mark = dotSlash ∨ mark = ['.', '\\']) :
    slashed dots.flatten = (List.replicate dots.length dotSlash).flatten := by
  induction dots with
  | nil => rfl
  | cons mark rest ih =>
      obtain ⟨hmark, hrest⟩ := List.forall_mem_cons.mp h
      have hslashed : slashed mark = dotSlash := by
        rcases hmark with rfl | rfl <;> rfl
      rw [List.flatten_cons, slashed_append, hslashed, ih hrest, List.length_cons,
        List.replicate_succ, List.flatten_cons]

/-- What stands in front of a trimmed text decides alone how the whole begins. -/
theorem tight_append {front path : List Char} (hfront : ∀ c ∈ front.head?, isBlank c = false)
    (h : Tight path) (hne : path ≠ []) : Tight (front ++ path) := by
  constructor
  · intro c hc
    cases front with
    | nil => exact h.1 c hc
    | cons d rest => exact hfront c hc
  · intro c hc
    rw [List.getLast?_append, Option.or_of_isSome (List.getLast?_isSome.mpr hne)] at hc
    exact h.2 c hc

theorem tight_dots_append (count : Nat) {path : List Char} (h : Tight path) (hne : path ≠ []) :
    Tight ((List.replicate count dotSlash).flatten ++ path) := by
  refine tight_append ?_ h hne
  intro c hc
  cases count with
  | zero => cases hc
  | succ count =>
      cases hc
      decide

/-- A spelling of a trimmed path that begins with no `./` means the path. -/
theorem Spelling.means {path text : List Char} (h : Spelling path text) (hne : path ≠ [])
    (htight : Tight path) (hdirect : ¬ dotSlash <+: path) : Means text path := by
  obtain ⟨before, dots, body, after, hbefore, hafter, hdots, hbody, htext⟩ := h
  have hcore : slashed (dots.flatten ++ body) =
      (List.replicate dots.length dotSlash).flatten ++ path := by
    rw [slashed_append, slashed_flatten_dots hdots, hbody]
  refine ⟨before, dots.flatten ++ body, after, dots.length, hbefore, ?_, hafter, ?_, hcore, hdirect⟩
  · apply tight_of_tight_slashed
    rw [hcore]
    exact tight_dots_append dots.length htight hne
  · rw [htext, List.append_assoc before dots.flatten body]

/-- Trimmed and with slashes, a text is the path that it means behind some `./`. -/
theorem Means.exists_slashed_trim {text path : List Char} (h : Means text path) :
    ∃ count, slashed (trim text) = (List.replicate count dotSlash).flatten ++ path := by
  obtain ⟨before, core, after, count, hbefore, htight, hafter, rfl, hcore, -⟩ := h
  exact ⟨count, by rw [trim_append hbefore htight hafter, hcore]⟩

/-- **Every spelling of a path is read as the path.** -/
theorem Spelling.spelledPath {path text : String} (h : Spelling path.toList text.toList)
    (hne : path ≠ "") (htight : Tight path.toList) (hdirect : ¬ dotSlash <+: path.toList) :
    spelledPath text = path :=
  spelledPath_eq_iff.mpr (h.means (by simpa using hne) htight hdirect)

theorem Spelling.nonempty {path text : String} (h : Spelling path.toList text.toList)
    (hne : path ≠ "") (htight : Tight path.toList) (hdirect : ¬ dotSlash <+: path.toList) :
    text ≠ "" := by
  rintro rfl
  exact hne (h.spelledPath hne htight hdirect).symm

/-! ## Reading what was read -/

/-- What is read has slashes only. -/
theorem backslash_not_mem_spelledPath (text : String) : '\\' ∉ (spelledPath text).toList := by
  unfold spelledPath
  rw [String.toList_ofList]
  intro hmem
  exact backslash_not_mem_slashed _ ((dropDotSlash_suffix _).subset hmem)

/-- What is read begins with no `./`. -/
theorem not_prefix_spelledPath (text : String) : ¬ dotSlash <+: (spelledPath text).toList := by
  unfold spelledPath
  rw [String.toList_ofList]
  exact (exists_eq_dropDotSlash _).1

/-- **What was read is read again as it is exactly if it is trimmed.** -/
theorem spelledPath_eq_self_iff {path : String} (hslashed : '\\' ∉ path.toList)
    (hdirect : ¬ dotSlash <+: path.toList) : spelledPath path = path ↔ Tight path.toList := by
  constructor
  · intro h
    obtain ⟨before, core, after, count, -, htight, -, htext, hcore, -⟩ := spelledPath_eq_iff.mp h
    -- the parts around the trimmed text would make the path longer than itself
    have hcut := congrArg List.length htext
    have hlength := congrArg List.length hcore
    rw [slashed, replaceChar, List.length_map, List.length_append] at hlength
    rw [List.length_append, List.length_append] at hcut
    have hbefore : before = [] := List.eq_nil_of_length_eq_zero (by omega)
    have hafter : after = [] := List.eq_nil_of_length_eq_zero (by omega)
    rwa [htext, hbefore, hafter, List.nil_append, List.append_nil]
  · intro htight
    refine spelledPath_eq_iff.mpr ⟨[], path.toList, [], 0, List.forall_mem_nil _, htight,
      List.forall_mem_nil _, ?_, ?_, hdirect⟩
    · rw [List.nil_append, List.append_nil]
    · exact replaceChar_of_not_mem hslashed

end SourceAtlas
