/-
# SourceAtlas.Proofs.Extract.Statement — the modules of written import statements.

A written statement is the case of the grammar in which every part is known: the modules of a list,
each possibly under a new name, with blanks around them, an indent before and a comment behind.
Whatever these are, the line names exactly the modules (`ImportStatement.lineNames_text`).

The main statement (`specifiersOf_python`) puts the three sides of extraction together: no search
of a text sees more than a line at a time, a line is read by the grammar, and what is written is
what is read.
-/
import SourceAtlas.Proofs.Extract.Lines

namespace SourceAtlas.Extract

open Text

/-! ## Written statements -/

/-- What may stand in an item of a list: all that may stand in a list but the comma. -/
def isItemChar (c : Char) : Bool :=
  isDotted c || isInnerBlank c

/-- A new name for a module of a list: `as` and the name, with blanks before both. -/
structure NewName where
  gap : List Char
  a : Char
  s : Char
  gap' : List Char
  name : List Char
  spaces : Spaces gap ∧ gap ≠ []
  isAs : IsAs a s
  spaces' : Spaces gap' ∧ gap' ≠ []
  dotted : (∀ c ∈ name, isDotted c = true) ∧ name ≠ []

/-- A new name as it is written. -/
def NewName.text (new : NewName) : List Char :=
  new.gap ++ [new.a, new.s] ++ new.gap' ++ new.name

/-- A module of a list, possibly under a new name, with blanks around it. -/
structure ListedModule where
  before : List Char
  name : List Char
  newName : Option NewName
  after : List Char
  spaces : Spaces before
  dotted : (∀ c ∈ name, isDotted c = true) ∧ name ≠ []
  spaces' : Spaces after

/-- The name and the new name of a listed module as they are written. -/
def ListedModule.core (module : ListedModule) : List Char :=
  match module.newName with
  | some new => module.name ++ new.text
  | none => module.name

/-- A listed module as it is written. -/
def ListedModule.text (module : ListedModule) : List Char :=
  module.before ++ module.core ++ module.after

/-- A statement that imports a list of modules, possibly with a comment behind it. -/
structure ImportStatement where
  indent : List Char
  gap : List Char
  first : ListedModule
  others : List ListedModule
  comment : List Char
  spaces : Spaces indent
  spaces' : Spaces gap ∧ gap ≠ []
  commented : ∀ c ∈ comment.head?, c = '#'
  oneLine : '\n' ∉ comment

/-- The modules of a statement. -/
def ImportStatement.modules (statement : ImportStatement) : List ListedModule :=
  statement.first :: statement.others

/-- A statement as it is written. -/
def ImportStatement.text (statement : ImportStatement) : List Char :=
  statement.indent ++ ['i', 'm', 'p', 'o', 'r', 't'] ++ statement.gap
    ++ [','].intercalate (statement.modules.map ListedModule.text) ++ statement.comment

theorem isListed_iff {c : Char} : isListed c = true ↔ isItemChar c = true ∨ c = ',' := by
  unfold isListed isItemChar
  rw [Bool.or_eq_true, beq_iff_eq]

theorem isItemChar_of_isDotted {c : Char} (h : isDotted c = true) : isItemChar c = true := by
  unfold isItemChar
  rw [h, Bool.true_or]

theorem isItemChar_of_isInnerBlank {c : Char} (h : isInnerBlank c = true) :
    isItemChar c = true := by
  unfold isItemChar
  rw [h, Bool.or_true]

theorem isDotted_of_isAs {a s : Char} (h : IsAs a s) : isDotted a = true ∧ isDotted s = true := by
  obtain ⟨rfl | rfl, rfl | rfl | rfl⟩ := h <;> decide +kernel

/-- Every character of joined texts is the joint or in one of them. -/
theorem mem_intercalate {lines : List (List Char)} {joint c : Char}
    (h : c ∈ [joint].intercalate lines) : c = joint ∨ ∃ line ∈ lines, c ∈ line := by
  induction lines with
  | nil => cases h
  | cons line rest ih =>
      by_cases hrest : rest = []
      · rw [hrest, List.intercalate_singleton] at h
        exact Or.inr ⟨line, List.mem_cons_self, h⟩
      · rw [List.intercalate_cons_of_ne_nil hrest, List.mem_append, List.mem_append,
          List.mem_singleton] at h
        rcases h with (h | h) | h
        · exact Or.inr ⟨line, List.mem_cons_self, h⟩
        · exact Or.inl h
        · rcases ih h with h | ⟨other, hother, h⟩
          · exact Or.inl h
          · exact Or.inr ⟨other, List.mem_cons_of_mem line hother, h⟩

namespace ListedModule

variable (module : ListedModule)

theorem isItemChar_core : ∀ c ∈ module.core, isItemChar c = true := by
  have hname : ∀ c ∈ module.name, isItemChar c = true :=
    fun c hc => isItemChar_of_isDotted (module.dotted.1 c hc)
  unfold core
  split
  · rename_i new _
    intro c hc
    simp only [NewName.text, List.mem_append, List.mem_cons, List.not_mem_nil, or_false] at hc
    rcases hc with hc | ((hc | rfl | rfl) | hc) | hc
    · exact hname c hc
    · exact isItemChar_of_isInnerBlank (new.spaces.1 c hc)
    · exact isItemChar_of_isDotted (isDotted_of_isAs new.isAs).1
    · exact isItemChar_of_isDotted (isDotted_of_isAs new.isAs).2
    · exact isItemChar_of_isInnerBlank (new.spaces'.1 c hc)
    · exact isItemChar_of_isDotted (new.dotted.1 c hc)
  · exact hname

theorem isItemChar_text : ∀ c ∈ module.text, isItemChar c = true := by
  intro c hc
  simp only [text, List.mem_append] at hc
  rcases hc with (hc | hc) | hc
  · exact isItemChar_of_isInnerBlank (module.spaces c hc)
  · exact module.isItemChar_core c hc
  · exact isItemChar_of_isInnerBlank (module.spaces' c hc)

theorem head?_core : module.core.head? = module.name.head? := by
  obtain ⟨d, name, hname⟩ := List.exists_cons_of_ne_nil module.dotted.2
  unfold core
  split
  · rw [hname]
    rfl
  · rfl

theorem exists_head?_core : ∃ c ∈ module.core.head?, isDotted c = true := by
  obtain ⟨d, name, hname⟩ := List.exists_cons_of_ne_nil module.dotted.2
  refine ⟨d, ?_, module.dotted.1 d (by rw [hname]; exact List.mem_cons_self)⟩
  rw [head?_core, hname]
  rfl

theorem core_ne_nil : module.core ≠ [] := by
  obtain ⟨c, hc, -⟩ := module.exists_head?_core
  intro hnil
  rw [hnil] at hc
  cases hc

theorem tight_core : Tight module.core := by
  have hlast : ∀ name : List Char, (∀ c ∈ name, isDotted c = true) →
      ∀ c ∈ name.getLast?, isBlank c = false :=
    fun name hname c hc => isBlank_of_isDotted (hname c (List.mem_of_getLast? hc))
  constructor
  · intro c hc
    rw [head?_core] at hc
    exact isBlank_of_isDotted (module.dotted.1 c (List.mem_of_head? hc))
  · unfold core
    split
    · rename_i new _
      intro c hc
      rw [NewName.text, ← List.append_assoc, List.getLast?_append_of_ne_nil _ new.dotted.2] at hc
      exact hlast new.name new.dotted.1 c hc
    · exact hlast module.name module.dotted.1

/-- The name of a module is what comes before its new name. -/
theorem beforeAlias_core : BeforeAlias module.core module.name := by
  have hblank : ∀ c ∈ module.name, isBlank c = false :=
    fun c hc => isBlank_of_isDotted (module.dotted.1 c hc)
  unfold core
  split
  · rename_i new _
    refine Or.inr ⟨⟨new.gap, new.a, new.s, new.gap', new.name, ⟨new.spaces.1.blank, new.spaces.2⟩,
      new.isAs, ⟨new.spaces'.1.blank, new.spaces'.2⟩, ?_⟩, ?_⟩
    · simp only [NewName.text, List.append_assoc]
    · -- a shorter beginning would be followed by a blank within the name
      rintro before ⟨gap, a, s, gap', rest, ⟨hgap, hne⟩, -, -, heq⟩
      by_contra hshort
      obtain ⟨g, gap, rfl⟩ := List.exists_cons_of_ne_nil hne
      have hprefix : before ++ [g] <+: module.name ++ new.text :=
        ⟨gap ++ [a, s] ++ gap' ++ rest, by rw [heq]; simp⟩
      have hname := List.prefix_of_prefix_length_le hprefix (List.prefix_append _ _)
        (by simp; omega)
      have hg := hblank g (hname.mem (by simp))
      rw [hgap g List.mem_cons_self] at hg
      cases hg
  · refine Or.inl ⟨rfl, ?_⟩
    rintro before ⟨gap, a, s, gap', rest, ⟨hgap, hne⟩, -, -, heq⟩
    obtain ⟨g, gap, rfl⟩ := List.exists_cons_of_ne_nil hne
    have hg := hblank g (by rw [heq]; simp)
    rw [hgap g List.mem_cons_self] at hg
    cases hg

theorem listedName?_of_spaces {before after : List Char} (hbefore : Spaces before)
    (hafter : Spaces after) :
    listedName? (before ++ module.core ++ after) = some module.name :=
  listedName?_eq_some_iff.mpr ⟨before, module.core, after, hbefore.blank, hafter.blank,
    module.tight_core, module.core_ne_nil, rfl, module.beforeAlias_core⟩

end ListedModule

namespace ImportStatement

variable (statement : ImportStatement)

/-- The list of a statement, without the blanks before its first module. -/
def listing : List Char :=
  [','].intercalate ((statement.first.core ++ statement.first.after)
    :: statement.others.map ListedModule.text)

/-- The items of the list are written without a comma. -/
theorem isItemChar_items : ∀ item ∈ (statement.first.core ++ statement.first.after)
    :: statement.others.map ListedModule.text, ∀ c ∈ item, isItemChar c = true := by
  intro item hitem c hc
  rcases List.mem_cons.mp hitem with rfl | hitem
  · exact statement.first.isItemChar_text c (by
      rw [ListedModule.text, List.append_assoc]
      exact List.mem_append_right _ hc)
  · obtain ⟨module, -, rfl⟩ := List.mem_map.mp hitem
    exact module.isItemChar_text c hc

theorem isListed_listing : ∀ c ∈ statement.listing, isListed c = true := by
  intro c hc
  rw [isListed_iff]
  rcases mem_intercalate hc with rfl | ⟨item, hitem, hc⟩
  · exact Or.inr rfl
  · exact Or.inl (statement.isItemChar_items item hitem c hc)

theorem text_eq : statement.text = statement.indent ++ ['i', 'm', 'p', 'o', 'r', 't']
    ++ (statement.gap ++ statement.first.before) ++ statement.listing ++ statement.comment := by
  unfold text listing modules ListedModule.text
  cases statement.others with
  | nil => simp
  | cons module others => simp

theorem importLine_text : ImportLine statement.text statement.listing := by
  refine ⟨statement.indent, statement.gap ++ statement.first.before, statement.comment,
    statement.spaces, ⟨?_, ?_⟩, ?_, statement.isListed_listing, statement.commented,
    statement.text_eq⟩
  · intro c hc
    rcases List.mem_append.mp hc with hc | hc
    · exact statement.spaces'.1 c hc
    · exact statement.first.spaces c hc
  · intro hnil
    exact statement.spaces'.2 (List.append_eq_nil_iff.mp hnil).1
  · obtain ⟨c, hc, hdotted⟩ := statement.first.exists_head?_core
    refine ⟨c, ?_, hdotted⟩
    unfold listing
    cases statement.others with
    | nil => simp [Option.mem_def.mp hc]
    | cons module others => simp [Option.mem_def.mp hc]

/-- **The list of a written statement names exactly its modules.** -/
theorem listedNames_listing :
    listedNames statement.listing = statement.modules.map (·.name) := by
  have hcomma : ∀ item ∈ (statement.first.core ++ statement.first.after)
      :: statement.others.map ListedModule.text, ',' ∉ item := by
    intro item hitem hc
    exact absurd (statement.isItemChar_items item hitem ',' hc) (by decide)
  have hothers : ∀ module : ListedModule, listedName? module.text = some module.name :=
    fun module => module.listedName?_of_spaces module.spaces module.spaces'
  have hfirst : listedName? ([] ++ statement.first.core ++ statement.first.after) =
      some statement.first.name :=
    statement.first.listedName?_of_spaces (List.forall_mem_nil _) statement.first.spaces'
  rw [List.nil_append] at hfirst
  unfold listedNames listing
  rw [pieces_intercalate hcomma (by simp), List.filterMap_cons, hfirst, List.filterMap_map]
  simp only [Function.comp_def, hothers, List.filterMap_eq_map', modules, List.map_cons]

/-- So does its line. -/
theorem lineNames_text {name : List Char} :
    LineNames statement.text name ↔ name ∈ statement.modules.map (·.name) := by
  rw [← listedNames_listing, mem_listedNames_iff]
  constructor
  · intro h
    cases h with
    | source h => exact absurd statement.importLine_text h.not_importLine
    | listed hline hitem hname =>
        rw [← hline.unique statement.importLine_text]
        exact ⟨_, hitem, hname⟩
  · rintro ⟨item, hitem, hname⟩
    exact .listed statement.importLine_text hitem hname

/-- A written statement is one line. -/
theorem not_mem_text : '\n' ∉ statement.text := by
  have hspaces : ∀ text, Spaces text → '\n' ∉ text :=
    fun text h hc => absurd (h '\n' hc) (by decide)
  have hlisting : '\n' ∉ statement.listing :=
    fun hc => absurd (statement.isListed_listing '\n' hc) (by decide)
  rw [text_eq]
  simp only [List.mem_append, not_or]
  exact ⟨⟨⟨⟨hspaces _ statement.spaces, by decide⟩, hspaces _ statement.spaces'.1,
    hspaces _ statement.first.spaces⟩, hlisting⟩, statement.oneLine⟩

end ImportStatement

/-! ## Texts -/

/-- **The specifiers of Python text are those of its lines, a line names what the grammar says, and
a written statement names exactly its modules.** -/
theorem specifiersOf_python :
    (∀ text rest, specifiersOf .python (text ++ '\n' :: rest) =
        (specifiersOf .python text).union (specifiersOf .python rest)) ∧
      (∀ text name, name ∈ specifiersOf .python text ↔
        ∃ line ∈ pieces (· == '\n') text, LineNames line name.toList) ∧
      ∀ statement : ImportStatement, specifiersOf .python statement.text =
        OrderedSet.ofList (statement.modules.map fun module => String.ofList module.name) := by
  have hmem : ∀ text name, name ∈ specifiersOf .python text ↔
      ∃ line ∈ pieces (· == '\n') text, LineNames line name.toList :=
    fun text name => mem_ofList_map_ofList.trans mem_dottedSpecifiers_iff
  refine ⟨fun text rest => ?_, hmem, fun statement => ?_⟩
  · apply OrderedSet.ext_mem
    intro name
    rw [OrderedSet.mem_union, hmem, hmem, hmem, pieces_append (by rfl)]
    simp only [List.mem_append, or_and_right, exists_or]
  · have hline : pieces (· == '\n') statement.text = [statement.text] := by
      apply pieces_of_no_cut
      intro c hc
      rw [beq_eq_false_iff_ne]
      rintro rfl
      exact statement.not_mem_text hc
    apply OrderedSet.ext_mem
    intro name
    have hname : name ∈ OrderedSet.ofList (statement.modules.map fun module =>
        String.ofList module.name) ↔ name.toList ∈ statement.modules.map (·.name) := by
      rw [← mem_ofList_map_ofList, List.map_map]
      rfl
    rw [hmem, hline, hname, ← statement.lineNames_text]
    simp only [List.mem_singleton, exists_eq_left]

/-- An indented statement with a new name, a trailing blank and a comment. -/
def renamingStatement : ImportStatement where
  indent := ['\t']
  gap := [' ']
  first :=
    { before := []
      name := "a.b".toList
      newName := some
        { gap := [' '], a := 'A', s := 's', gap' := [' ', '\t'], name := ['c']
          spaces := by decide, isAs := by decide, spaces' := by decide
          dotted := ⟨forall_mem_of_all (by decide), by decide⟩ }
      after := [' ']
      spaces := by decide
      dotted := ⟨forall_mem_of_all (by decide), by decide⟩
      spaces' := by decide }
  others :=
    [{ before := [], name := "as".toList, newName := none, after := []
       spaces := by decide, dotted := ⟨forall_mem_of_all (by decide), by decide⟩
       spaces' := by decide }]
  comment := '#' :: " import d".toList
  spaces := by decide
  spaces' := by decide
  commented := by
    rintro c ⟨⟩
    rfl
  oneLine := by decide

theorem specifiersOf_python_renamingStatement :
    specifiersOf .python "\timport a.b As \tc ,as# import d".toList =
      OrderedSet.ofList ["a.b", "as"] :=
  specifiersOf_python.2.2 renamingStatement

end SourceAtlas.Extract
