/-
# SourceAtlas.Proofs.Extract.Dotted — import lines of Python.

Nothing that may stand in a dotted name is a blank, a comma, a number sign or a line end, so a line
`import name` has one item and that item is the whole name.  The search for `from` finds nothing
in such lines, the search for `import` finds the name of each (`dottedSpecifiers_dottedLines`).
-/
import SourceAtlas.Proofs.Extract.Lines

namespace SourceAtlas.Extract

open Text

/-! ## One line -/

/-- A line that imports one module. -/
def dottedLine (name : List Char) : List Char :=
  ['i', 'm', 'p', 'o', 'r', 't', ' '] ++ name

/-- The text of lines that each import a module. -/
def dottedLines (names : List (List Char)) : List Char :=
  (names.map dottedLine).flatMap (· ++ ['\n'])

section Line

variable {name : List Char}

theorem not_mem_dottedLine (hname : ∀ c ∈ name, isDotted c = true) : '\n' ∉ dottedLine name := by
  unfold dottedLine
  rw [List.mem_append, not_or]
  exact ⟨by decide, fun h => absurd (hname '\n' h) (by decide)⟩

/-- The list of the line is the name. -/
theorem importLine_dottedLine (hne : name ≠ []) (hname : ∀ c ∈ name, isDotted c = true) :
    ImportLine (dottedLine name) name := by
  obtain ⟨c, rest, rfl⟩ := List.exists_cons_of_ne_nil hne
  refine ⟨[], [' '], [], List.forall_mem_nil _, by decide, ⟨c, rfl, hname c List.mem_cons_self⟩,
    fun d hd => ?_, by simp, by simp [dottedLine]⟩
  unfold isListed
  rw [hname d hd]
  rfl

theorem fromNames_dottedLine (hne : name ≠ []) (hname : ∀ c ∈ name, isDotted c = true) :
    fromStatement.names none (dottedLine name) = [] := by
  refine List.eq_nil_iff_forall_not_mem.mpr fun other hother => ?_
  have hfrom := fromLine_of_mem_names (not_mem_dottedLine hname) hother
  exact hfrom.not_importLine (importLine_dottedLine hne hname)

theorem importNames_dottedLine (hne : name ≠ []) (hname : ∀ c ∈ name, isDotted c = true) :
    importStatement.names none (dottedLine name) = [name] := by
  have hline := not_mem_dottedLine hname
  obtain ⟨front, gap, hfront, hgap, hsplit⟩ :=
    (importLine_dottedLine hne hname).exists_mem_names hline
  -- no blank is left behind a name
  have hgapnil : gap = [] := by
    refine List.eq_nil_iff_forall_not_mem.mpr fun c hc => ?_
    have hblank := isInnerBlank_of_isDotted (hname c (hsplit ▸ List.mem_append_right front hc))
    rw [hgap c hc] at hblank
    cases hblank
  rw [hgapnil, List.append_nil] at hsplit
  rw [hsplit] at hline ⊢
  exact Search.names_eq_singleton importStatement_isLinewise hline (hsplit ▸ hfront)

/-- **A name without blanks is the whole item.** -/
theorem itemNames_self (hne : name ≠ []) (h : ∀ c ∈ name, isBlank c = false) :
    ItemNames name name := by
  have htight : Tight name :=
    ⟨fun c hc => h c (List.mem_of_head? hc), fun c hc => h c (List.mem_of_getLast? hc)⟩
  refine ⟨[], name, [], List.forall_mem_nil _, List.forall_mem_nil _, htight, hne, by simp,
    Or.inl ⟨rfl, ?_⟩⟩
  rintro before ⟨gap, a, s, gap', rest, ⟨hgap, hgapne⟩, -, -, rfl⟩
  obtain ⟨g, gap, rfl⟩ := List.exists_cons_of_ne_nil hgapne
  have hg := h g (by simp)
  rw [hgap g List.mem_cons_self] at hg
  cases hg

theorem listedNames_self (hne : name ≠ []) (hname : ∀ c ∈ name, isDotted c = true) :
    listedNames name = [name] := by
  have hcomma : ∀ c ∈ name, (c == ',') = false :=
    fun c hc => ne_of_isDotted (hname c hc) (by decide)
  have hitem : listedName? name = some name :=
    listedName?_eq_some_iff.mpr (itemNames_self hne fun c hc => isBlank_of_isDotted (hname c hc))
  unfold listedNames
  rw [pieces_of_no_cut hcomma, List.filterMap_cons_some hitem, List.filterMap_nil]

end Line

/-! ## All lines -/

theorem flatMap_eq_self {names : List (List Char)} {f : List Char → List (List Char)}
    (h : ∀ name ∈ names, f name = [name]) : names.flatMap f = names := by
  rw [List.flatMap_congr h, List.flatMap_singleton']

/-- **Import lines yield exactly the modules they name.** -/
theorem dottedSpecifiers_dottedLines {names : List (List Char)}
    (hnames : ∀ name ∈ names, name ≠ [] ∧ ∀ c ∈ name, isDotted c = true) :
    dottedSpecifiers (dottedLines names) = names := by
  have hlines : ∀ line ∈ names.map dottedLine, ∀ c ∈ line, (c == '\n') = false := by
    intro line hline c hc
    obtain ⟨name, hname, rfl⟩ := List.mem_map.mp hline
    rw [beq_eq_false_iff_ne]
    rintro rfl
    exact not_mem_dottedLine (hnames name hname).2 hc
  -- the names of the lines, and of the empty piece behind them
  have hsearch : ∀ search : Search, search.isInline = true →
      search.names none (dottedLines names) =
        names.flatMap fun name => search.names none (dottedLine name) := by
    intro search hinline
    unfold dottedLines
    rw [Search.names_eq_flatMap hinline, pieces_flatMap_lines hlines rfl, List.flatMap_append,
      List.flatMap_singleton, Search.names, List.append_nil, List.flatMap_map]
  have hfrom : fromStatement.names none (dottedLines names) = [] := by
    rw [hsearch _ fromStatement_isLinewise.inline, List.flatMap_eq_nil_iff]
    exact fun name hname => fromNames_dottedLine (hnames name hname).1 (hnames name hname).2
  have himport : importStatement.names none (dottedLines names) = names := by
    rw [hsearch _ importStatement_isLinewise.inline]
    exact flatMap_eq_self fun name hname =>
      importNames_dottedLine (hnames name hname).1 (hnames name hname).2
  have hlisted : names.flatMap listedNames = names :=
    flatMap_eq_self fun name hname => listedNames_self (hnames name hname).1 (hnames name hname).2
  unfold dottedSpecifiers
  rw [hfrom, himport, hlisted]
  rfl

end SourceAtlas.Extract
