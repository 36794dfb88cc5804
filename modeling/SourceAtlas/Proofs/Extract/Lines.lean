/-
# SourceAtlas.Proofs.Extract.Lines — the import statements of Python as a grammar of lines.

Extraction searches the whole text for two patterns.  The grammar told here is one of lines:
`FromLine` for a line `from X import …`, `ImportLine` for a line `import …` and its list,
`ItemNames` for what an item of a list names.

A match of either pattern begins where a line does and stays in that line, so a text names what its
lines name.  On one line a pattern has several ways to match: blanks are given back, a list is
ended as early as the rest of the line allows, and a comment may follow or not.  All ways find the
one name that the grammar allows (`mem_fromNames_iff`), or a list with the same names
(`mem_importNames_iff`).  So a text names what the grammar says of its lines and nothing else
(`mem_dottedSpecifiers_iff`).

Where an item ends is subtle.  Only a word `as` with white space on both sides counts, the white
space around the item having been dropped before: an `as` at either end of an item is part of it.
-/
import Mathlib.Data.List.TakeDrop
import SourceAtlas.Extract
import SourceAtlas.Proofs.Text.Class
import SourceAtlas.Proofs.Text.Search

namespace SourceAtlas.Extract

open Text

/-! ## The grammar -/

/-- Spaces and tabs and nothing else. -/
def Spaces (text : List Char) : Prop :=
  ∀ c ∈ text, isInnerBlank c = true

instance (text : List Char) : Decidable (Spaces text) :=
  decidable_of_iff (text.all isInnerBlank = true) List.all_eq_true

/-- **`FromLine line name`** — the line is `from`, the name and the word `import`, with blanks
between them and possibly before them. -/
def FromLine (line name : List Char) : Prop :=
  ∃ indent gap gap' rest, Spaces indent ∧ (Spaces gap ∧ gap ≠ []) ∧ (Spaces gap' ∧ gap' ≠ []) ∧
    ((∀ c ∈ name, isDotted c = true) ∧ name ≠ []) ∧ (∀ c ∈ rest.head?, isWord c = false) ∧
    line = indent ++ ['f', 'r', 'o', 'm'] ++ gap ++ name ++ gap'
      ++ ['i', 'm', 'p', 'o', 'r', 't'] ++ rest

/-- **`ImportLine line listing`** — the line is `import` and the list, and nothing follows but a
comment.  The list begins with a name. -/
def ImportLine (line listing : List Char) : Prop :=
  ∃ indent gap comment, Spaces indent ∧ (Spaces gap ∧ gap ≠ []) ∧
    (∃ c ∈ listing.head?, isDotted c = true) ∧ (∀ c ∈ listing, isListed c = true) ∧
    (∀ c ∈ comment.head?, c = '#') ∧
    line = indent ++ ['i', 'm', 'p', 'o', 'r', 't'] ++ gap ++ listing ++ comment

/-- The two characters are the word `as` in some case; the long s is one of its letters. -/
def IsAs (a s : Char) : Prop :=
  (a = 'a' ∨ a = 'A') ∧ (s = 's' ∨ s = 'S' ∨ s = 'ſ')

instance (a s : Char) : Decidable (IsAs a s) :=
  inferInstanceAs (Decidable ((a = 'a' ∨ a = 'A') ∧ (s = 's' ∨ s = 'S' ∨ s = 'ſ')))

/-- **`AliasAfter text before`** — in the text a word `as` with white space on both sides comes
after the given beginning. -/
def AliasAfter (text before : List Char) : Prop :=
  ∃ gap a s gap' rest, (Blank gap ∧ gap ≠ []) ∧ IsAs a s ∧ (Blank gap' ∧ gap' ≠ []) ∧
    text = before ++ gap ++ [a, s] ++ gap' ++ rest

/-- **`BeforeAlias text name`** — the name is what comes before the first such `as`, or the whole
text if there is none. -/
def BeforeAlias (text name : List Char) : Prop :=
  (name = text ∧ ∀ before, ¬ AliasAfter text before) ∨
    (AliasAfter text name ∧ ∀ before, AliasAfter text before → name.length ≤ before.length)

/-- **`ItemNames item name`** — the item is not blank, and without the white space around it the
name is what comes before its first `as`. -/
def ItemNames (item name : List Char) : Prop :=
  ∃ before text after, Blank before ∧ Blank after ∧ Tight text ∧ text ≠ [] ∧
    item = before ++ text ++ after ∧ BeforeAlias text name

/-- **`LineNames line name`** — the line is an import statement that names the module. -/
inductive LineNames (line : List Char) : List Char → Prop
  | source {name : List Char} (h : FromLine line name) : LineNames line name
  | listed {listing item name : List Char} (hline : ImportLine line listing)
      (hitem : item ∈ pieces (· == ',') listing) (hname : ItemNames item name) :
      LineNames line name

/-! ## The characters of a statement -/

section Characters

variable {c d : Char}

theorem isBlank_of_isDotted (h : isDotted c = true) : isBlank c = false := by
  rw [← Bool.not_eq_true]
  intro hblank
  have hword := isWord_of_isBlank hblank
  unfold isDotted at h
  rw [hword, Bool.false_or] at h
  rw [eq_of_beq h] at hblank
  exact absurd hblank (by decide)

theorem isBlank_of_isInnerBlank (h : isInnerBlank c = true) : isBlank c = true := by
  unfold isInnerBlank at h
  rcases Bool.or_eq_true_iff.mp h with h | h
  · rw [eq_of_beq h]
    decide
  · rw [eq_of_beq h]
    decide

theorem isInnerBlank_of_isDotted (h : isDotted c = true) : isInnerBlank c = false := by
  rw [← Bool.not_eq_true]
  intro hinner
  have hblank := isBlank_of_isDotted h
  rw [isBlank_of_isInnerBlank hinner] at hblank
  cases hblank

theorem isDotted_of_isInnerBlank (h : isInnerBlank c = true) : isDotted c = false := by
  rw [← Bool.not_eq_true]
  intro hdotted
  rw [isInnerBlank_of_isDotted hdotted] at h
  cases h

theorem ne_of_isDotted (h : isDotted c = true) (hd : isDotted d = false) : (c == d) = false := by
  rw [beq_eq_false_iff_ne]
  intro heq
  rw [heq, hd] at h
  cases h

theorem Spaces.blank {text : List Char} (h : Spaces text) : Blank text :=
  fun c hc => isBlank_of_isInnerBlank (h c hc)

end Characters

/-! ## What the patterns stand for -/

section Patterns

variable {before : Option Char} {word read rest : List Char}

theorem reads_opening : (opening word).Reads before read rest ↔
    (∀ c ∈ before, c = '\n') ∧ ∃ indent gap, Spaces indent ∧ (Spaces gap ∧ gap ≠ []) ∧
      read = indent ++ (word ++ gap) := by
  constructor
  · rintro ⟨_, _, rfl, ⟨rfl, hstart⟩, indent, _, rfl, hindent, _, _, rfl, hword, gap, _, rfl, hgap,
      rfl⟩
    rw [Pattern.reads_word.mp hword, List.append_nil]
    exact ⟨hstart, indent, gap, hindent, Pattern.reads_atLeastOne.mp hgap, rfl⟩
  · rintro ⟨hstart, indent, gap, hindent, hgap, rfl⟩
    exact ⟨[], _, rfl, ⟨rfl, hstart⟩, indent, _, rfl, hindent, word, gap, rfl,
      Pattern.reads_word.mpr rfl, gap, [], (List.append_nil gap).symm,
      Pattern.reads_atLeastOne.mpr hgap, rfl⟩

theorem ne_nil_of_reads_opening (h : (opening word).Reads before read rest) : read ≠ [] := by
  obtain ⟨-, indent, gap, -, ⟨-, hne⟩, rfl⟩ := reads_opening.mp h
  simp [hne]

/-- The word `import` behind a name, where the edge of the word is the end of `t`. -/
theorem reads_importWord : fromStatement.tail.Reads before read rest ↔
    ∃ gap, (Spaces gap ∧ gap ≠ []) ∧ (∀ c ∈ rest.head?, isWord c = false) ∧
      read = gap ++ ['i', 'm', 'p', 'o', 'r', 't'] := by
  have hedge : ∀ before : Option Char,
      (behind before ['i', 'm', 'p', 'o', 'r', 't']).any isWord ≠ rest.head?.any isWord ↔
        ∀ c ∈ rest.head?, isWord c = false := by
    intro before
    have hword : (behind before ['i', 'm', 'p', 'o', 'r', 't']).any isWord = true := by
      show isWord 't' = true
      decide
    rw [hword]
    cases rest.head? with
    | none => simp
    | some c => simp
  constructor
  · rintro ⟨gap, _, rfl, hgap, _, _, rfl, hword, _, _, rfl, ⟨rfl, hend⟩, rfl⟩
    obtain rfl := Pattern.reads_word.mp hword
    exact ⟨gap, Pattern.reads_atLeastOne.mp hgap, (hedge _).mp hend, rfl⟩
  · rintro ⟨gap, hgap, hrest, rfl⟩
    exact ⟨gap, _, rfl, Pattern.reads_atLeastOne.mpr hgap, _, [], (List.append_nil _).symm,
      Pattern.reads_word.mpr rfl, [], [], rfl, ⟨rfl, (hedge _).mpr hrest⟩, rfl⟩

theorem reads_maybe_comment : (Pattern.maybe comment).Reads before read rest ↔
    (∀ c ∈ read.head?, c = '#') ∧ '\n' ∉ read := by
  constructor
  · rintro (⟨_, ys, rfl, ⟨c, hc, rfl⟩, hys⟩ | rfl)
    · obtain rfl := eq_of_beq hc
      refine ⟨fun d hd => (Option.some.inj hd).symm, fun h => ?_⟩
      rcases List.mem_cons.mp h with h | h
      · exact absurd h (by decide)
      · exact absurd (hys _ h) (by decide)
    · exact ⟨by simp, List.not_mem_nil⟩
  · rintro ⟨hhash, hline⟩
    cases read with
    | nil => exact Or.inr rfl
    | cons c read =>
        refine Or.inl ⟨[c], read, rfl, ⟨c, beq_iff_eq.mpr (hhash c rfl), rfl⟩, fun d hd => ?_⟩
        rw [bne_iff_ne]
        rintro rfl
        exact hline (List.mem_cons_of_mem c hd)

/-- What may follow a list: blanks and a comment, up to the end of the line. -/
theorem reads_importEnd : importStatement.tail.Reads before read rest ↔
    ∃ gap remark, Spaces gap ∧ ((∀ c ∈ remark.head?, c = '#') ∧ '\n' ∉ remark) ∧
      (∀ c ∈ rest.head?, c = '\n') ∧ read = gap ++ remark := by
  constructor
  · rintro ⟨gap, _, rfl, hgap, remark, _, rfl, hremark, _, _, rfl, ⟨rfl, hend⟩, rfl⟩
    exact ⟨gap, remark, hgap, reads_maybe_comment.mp hremark, hend, by simp only [List.append_nil]⟩
  · rintro ⟨gap, remark, hgap, hremark, hend, rfl⟩
    exact ⟨gap, _, rfl, hgap, remark, [], (List.append_nil _).symm,
      reads_maybe_comment.mpr hremark, [], [], rfl, ⟨rfl, hend⟩, rfl⟩

theorem reads_listing : importStatement.name.Reads before read rest ↔
    (∃ c ∈ read.head?, isDotted c = true) ∧ ∀ c ∈ read, isListed c = true := by
  constructor
  · rintro ⟨_, ys, rfl, ⟨c, hc, rfl⟩, hys⟩
    refine ⟨⟨c, rfl, hc⟩, List.forall_mem_cons.mpr ⟨?_, hys⟩⟩
    unfold isListed
    rw [hc]
    rfl
  · rintro ⟨⟨c, hhead, hc⟩, hlisted⟩
    obtain ⟨ys, rfl⟩ := List.head?_eq_some_iff.mp hhead
    exact ⟨[c], ys, rfl, ⟨c, hc, rfl⟩, (List.forall_mem_cons.mp hlisted).2⟩

theorem fromStatement_isLinewise : fromStatement.IsLinewise where
  starts := ⟨_, rfl⟩
  inline := by decide +kernel
  takes := ne_nil_of_reads_opening

theorem importStatement_isLinewise : importStatement.IsLinewise where
  starts := ⟨_, rfl⟩
  inline := by decide +kernel
  takes := ne_nil_of_reads_opening

end Patterns

/-! ## The statements of a line -/

section Statements

variable {line word indent gap rest name name' listing listing' : List Char}

/-- What stands behind the opening word of a line. -/
def behindWord (word line : List Char) : List Char :=
  ((line.dropWhile isInnerBlank).drop word.length).dropWhile isInnerBlank

theorem behindWord_eq (hindent : Spaces indent) (hword : ∃ c ∈ word.head?, isInnerBlank c = false)
    (hgap : Spaces gap) (hrest : ∀ c ∈ rest.head?, isInnerBlank c = false) :
    behindWord word (indent ++ (word ++ (gap ++ rest))) = rest := by
  have hstop : ∀ c ∈ (word ++ (gap ++ rest)).head?, isInnerBlank c = false := by
    obtain ⟨c, hc, hblank⟩ := hword
    intro d hd
    rw [List.head?_append, Option.mem_def.mp hc] at hd
    cases hd
    exact hblank
  unfold behindWord
  rw [dropWhile_append_of_stop hindent hstop, List.drop_left, dropWhile_append_of_stop hgap hrest]

theorem FromLine.name_eq (h : FromLine line name) :
    name = (behindWord ['f', 'r', 'o', 'm'] line).takeWhile isDotted := by
  obtain ⟨indent, gap, gap', rest, hindent, ⟨hgap, -⟩, ⟨hgap', hne'⟩, ⟨hname, hne⟩, -, rfl⟩ := h
  obtain ⟨c, name, rfl⟩ := List.exists_cons_of_ne_nil hne
  obtain ⟨d, gap', rfl⟩ := List.exists_cons_of_ne_nil hne'
  have hstart : ∀ e ∈ (c :: name ++ (d :: gap' ++ (['i', 'm', 'p', 'o', 'r', 't'] ++ rest))).head?,
      isInnerBlank e = false := by
    rintro e ⟨⟩
    exact isInnerBlank_of_isDotted (hname c List.mem_cons_self)
  have hstop : ∀ e ∈ (d :: gap' ++ (['i', 'm', 'p', 'o', 'r', 't'] ++ rest)).head?,
      isDotted e = false := by
    rintro e ⟨⟩
    exact isDotted_of_isInnerBlank (hgap' d List.mem_cons_self)
  simp only [List.append_assoc]
  rw [behindWord_eq hindent ⟨'f', rfl, rfl⟩ hgap hstart, takeWhile_append_of_stop hname hstop]

theorem ImportLine.listing_eq (h : ImportLine line listing) :
    listing = (behindWord ['i', 'm', 'p', 'o', 'r', 't'] line).takeWhile isListed := by
  obtain ⟨indent, gap, remark, hindent, ⟨hgap, -⟩, ⟨c, hc, hdotted⟩, hlisted, hremark, rfl⟩ := h
  have hstart : ∀ d ∈ (listing ++ remark).head?, isInnerBlank d = false := by
    intro d hd
    rw [List.head?_append, Option.mem_def.mp hc] at hd
    cases hd
    exact isInnerBlank_of_isDotted hdotted
  have hstop : ∀ d ∈ remark.head?, isListed d = false := by
    intro d hd
    rw [hremark d hd]
    decide
  simp only [List.append_assoc]
  rw [behindWord_eq hindent ⟨'i', rfl, rfl⟩ hgap hstart, takeWhile_append_of_stop hlisted hstop]

theorem FromLine.unique (h : FromLine line name) (h' : FromLine line name') : name = name' :=
  h.name_eq.trans h'.name_eq.symm

theorem ImportLine.unique (h : ImportLine line listing) (h' : ImportLine line listing') :
    listing = listing' :=
  h.listing_eq.trans h'.listing_eq.symm

/-- No line is a statement of both kinds. -/
theorem FromLine.not_importLine (h : FromLine line name) : ¬ ImportLine line listing := by
  rintro ⟨indent', gap', remark, hindent', -, -, -, -, hline⟩
  obtain ⟨indent, gap, gap'', rest, hindent, -, -, -, -, rfl⟩ := h
  have hdrop := congrArg (List.dropWhile isInnerBlank) hline
  simp only [List.append_assoc] at hdrop
  rw [dropWhile_append_of_stop hindent (by rintro c ⟨⟩; rfl),
    dropWhile_append_of_stop hindent' (by rintro c ⟨⟩; rfl)] at hdrop
  cases hdrop

theorem fromLine_of_mem_names (hline : '\n' ∉ line) (h : name ∈ fromStatement.names none line) :
    FromLine line name := by
  obtain ⟨_, _, rest, rfl, hopens, hname, hcloses⟩ :=
    Search.exists_reads_of_mem_names fromStatement_isLinewise hline h
  obtain ⟨-, indent, gap, hindent, hgap, rfl⟩ := reads_opening.mp hopens
  obtain ⟨gap', hgap', hrest, rfl⟩ := reads_importWord.mp hcloses
  exact ⟨indent, gap, gap', rest, hindent, hgap, hgap', Pattern.reads_atLeastOne.mp hname, hrest,
    by simp only [List.append_assoc]⟩

/-- **The search for `from` finds the name of the line.** -/
theorem mem_fromNames_iff (hline : '\n' ∉ line) :
    name ∈ fromStatement.names none line ↔ FromLine line name := by
  refine ⟨fromLine_of_mem_names hline, fun h => ?_⟩
  have ⟨indent, gap, gap', rest, hindent, hgap, hgap', hname, hrest, hsplit⟩ := h
  have hmatch : line = (indent ++ (['f', 'r', 'o', 'm'] ++ gap)) ++
      (name ++ ((gap' ++ ['i', 'm', 'p', 'o', 'r', 't']) ++ rest)) := by
    rw [hsplit]
    simp only [List.append_assoc]
  obtain ⟨name', hname'⟩ := Search.exists_mem_names fromStatement_isLinewise (hmatch ▸ hline)
    { opens := reads_opening.mpr ⟨nofun, indent, gap, hindent, hgap, rfl⟩
      names := Pattern.reads_atLeastOne.mpr hname
      closes := reads_importWord.mpr ⟨gap', hgap', hrest, rfl⟩ }
  rw [← hmatch] at hname'
  rwa [h.unique (fromLine_of_mem_names hline hname')]

/-- A list that is found may have lost the blanks behind it. -/
theorem importLine_of_mem_names (hline : '\n' ∉ line)
    (h : listing ∈ importStatement.names none line) :
    ∃ gap, Spaces gap ∧ ImportLine line (listing ++ gap) := by
  obtain ⟨_, _, rest, rfl, hopens, hlisting, hcloses⟩ :=
    Search.exists_reads_of_mem_names importStatement_isLinewise hline h
  obtain ⟨-, indent, gap, hindent, hgap, rfl⟩ := reads_opening.mp hopens
  obtain ⟨gap', remark, hgap', hremark, hend, rfl⟩ := reads_importEnd.mp hcloses
  obtain ⟨⟨c, hc, hdotted⟩, hlisted⟩ := reads_listing.mp hlisting
  -- the end of the line is the end of the text
  have hrest : rest = [] := by
    rw [← List.head?_eq_none_iff]
    refine Option.eq_none_iff_forall_not_mem.mpr fun d hd => hline ?_
    rw [← hend d hd]
    simp only [List.mem_append]
    exact Or.inr (Or.inr (Or.inr (List.mem_of_head? hd)))
  refine ⟨gap', hgap', indent, gap, remark, hindent, hgap, ⟨c, ?_, hdotted⟩, ?_, hremark.1, ?_⟩
  · rw [List.head?_append, Option.mem_def.mp hc]
    rfl
  · refine List.forall_mem_append.mpr ⟨hlisted, fun d hd => ?_⟩
    unfold isListed
    rw [hgap' d hd, Bool.or_true, Bool.true_or]
  · rw [hrest]
    simp only [List.append_assoc, List.append_nil]

/-- The list of a line is found, without some of the blanks at its end. -/
theorem ImportLine.exists_mem_names (hline : '\n' ∉ line) (h : ImportLine line listing) :
    ∃ front gap, front ∈ importStatement.names none line ∧ Spaces gap ∧ listing = front ++ gap := by
  have ⟨indent, gap, remark, hindent, hgap, hstart, hlisted, hremark, hsplit⟩ := h
  have hmatch : line = (indent ++ (['i', 'm', 'p', 'o', 'r', 't'] ++ gap)) ++
      (listing ++ (([] ++ remark) ++ [])) := by
    rw [hsplit]
    simp only [List.append_assoc, List.nil_append, List.append_nil]
  have hremarkLine : '\n' ∉ remark := by
    intro hmem
    refine hline (hsplit ▸ ?_)
    simp only [List.mem_append]
    exact Or.inr hmem
  obtain ⟨front, hfront⟩ := Search.exists_mem_names importStatement_isLinewise (hmatch ▸ hline)
    { opens := reads_opening.mpr ⟨nofun, indent, gap, hindent, hgap, rfl⟩
      names := reads_listing.mpr ⟨hstart, hlisted⟩
      closes := reads_importEnd.mpr
        ⟨[], remark, List.forall_mem_nil _, ⟨hremark, hremarkLine⟩, by simp, rfl⟩ }
  rw [← hmatch] at hfront
  obtain ⟨gap', hgap', hfrontLine⟩ := importLine_of_mem_names hline hfront
  exact ⟨front, gap', hfront, hgap', h.unique hfrontLine⟩

end Statements

/-! ## Reading the items of a list -/

section Items

variable {text item name : List Char}

theorem isAt_aliasMark {before : Option Char} :
    aliasMark.isAt ⟨before, text⟩ = true ↔ AliasAfter text [] := by
  rw [Pattern.isAt_iff]
  constructor
  · rintro ⟨_, rest, rfl, gap, _, rfl, hgap, _, _, rfl, ⟨a, ha, rfl⟩, _, _, rfl, ⟨s, hs, rfl⟩, gap',
      _, rfl, hgap', rfl⟩
    simp only [Bool.or_eq_true, beq_iff_eq, or_assoc] at ha hs
    exact ⟨gap, a, s, gap', rest, Pattern.reads_atLeastOne.mp hgap, ⟨ha, hs⟩,
      Pattern.reads_atLeastOne.mp hgap', by simp⟩
  · rintro ⟨gap, a, s, gap', rest, hgap, ⟨ha, hs⟩, hgap', rfl⟩
    refine ⟨gap ++ ([a] ++ ([s] ++ (gap' ++ []))), rest, by simp, gap, _, rfl,
      Pattern.reads_atLeastOne.mpr hgap, _, _, rfl, ⟨a, ?_, rfl⟩, _, _, rfl, ⟨s, ?_, rfl⟩, gap', [],
      rfl, Pattern.reads_atLeastOne.mpr hgap', rfl⟩
    · simpa only [Bool.or_eq_true, beq_iff_eq] using ha
    · simpa only [Bool.or_eq_true, beq_iff_eq, or_assoc] using hs

theorem aliasAfter_cons {c d : Char} {rest before : List Char} :
    AliasAfter (c :: rest) (d :: before) ↔ c = d ∧ AliasAfter rest before := by
  unfold AliasAfter
  constructor
  · rintro ⟨gap, a, s, gap', behind, hgap, has, hgap', heq⟩
    obtain ⟨rfl, rfl⟩ := List.cons.inj heq
    exact ⟨rfl, gap, a, s, gap', behind, hgap, has, hgap', rfl⟩
  · rintro ⟨rfl, gap, a, s, gap', behind, hgap, has, hgap', rfl⟩
    exact ⟨gap, a, s, gap', behind, hgap, has, hgap', rfl⟩

theorem not_aliasAfter_nil (before : List Char) : ¬ AliasAfter [] before := by
  rintro ⟨gap, a, s, gap', rest, -, -, -, heq⟩
  have hlength := congrArg List.length heq
  simp at hlength

/-- **An item is cut at the first `as`.** -/
theorem beforeAlias_textBefore (before : Option Char) (text : List Char) :
    BeforeAlias text (aliasMark.textBefore before text) := by
  induction text generalizing before with
  | nil => exact Or.inl ⟨rfl, not_aliasAfter_nil⟩
  | cons c rest ih =>
      rw [Pattern.textBefore]
      by_cases hat : aliasMark.isAt ⟨before, c :: rest⟩ = true
      · rw [if_pos hat]
        exact Or.inr ⟨isAt_aliasMark.mp hat, fun before _ => Nat.zero_le _⟩
      · have hnil : ¬ AliasAfter (c :: rest) [] := fun h => hat (isAt_aliasMark.mpr h)
        rw [if_neg hat]
        rcases ih (some c) with ⟨heq, hnone⟩ | ⟨hfirst, hleast⟩
        · refine Or.inl ⟨congrArg (c :: ·) heq, fun before h => ?_⟩
          cases before with
          | nil => exact hnil h
          | cons d before => exact hnone before (aliasAfter_cons.mp h).2
        · refine Or.inr ⟨aliasAfter_cons.mpr ⟨rfl, hfirst⟩, fun before h => ?_⟩
          cases before with
          | nil => exact absurd h hnil
          | cons d before => exact Nat.succ_le_succ (hleast before (aliasAfter_cons.mp h).2)

theorem prefix_of_aliasAfter (h : AliasAfter text name) : name <+: text := by
  obtain ⟨gap, a, s, gap', rest, -, -, -, rfl⟩ := h
  simp only [List.append_assoc]
  exact List.prefix_append _ _

theorem BeforeAlias.unique {name' : List Char} (h : BeforeAlias text name)
    (h' : BeforeAlias text name') : name = name' := by
  rcases h with ⟨rfl, hnone⟩ | ⟨hfirst, hleast⟩
  · rcases h' with ⟨rfl, -⟩ | ⟨hfirst', -⟩
    · rfl
    · exact absurd hfirst' (hnone name')
  · rcases h' with ⟨rfl, hnone'⟩ | ⟨hfirst', hleast'⟩
    · exact absurd hfirst (hnone' name)
    · have hprefix := List.prefix_of_prefix_length_le (prefix_of_aliasAfter hfirst)
        (prefix_of_aliasAfter hfirst') (hleast name' hfirst')
      exact hprefix.eq_of_length (Nat.le_antisymm (hleast name' hfirst') (hleast' name hfirst))

/-- What comes before the first `as` of a trimmed text is trimmed and not empty. -/
theorem BeforeAlias.tight (htext : Tight text) (hne : text ≠ []) (h : BeforeAlias text name) :
    Tight name ∧ name ≠ [] := by
  rcases h with ⟨rfl, -⟩ | ⟨⟨gap, a, s, gap', rest, ⟨hgap, hgapne⟩, has, hgap', rfl⟩, hleast⟩
  · exact ⟨htext, hne⟩
  obtain ⟨g, gap, rfl⟩ := List.exists_cons_of_ne_nil hgapne
  have hname : name ≠ [] := by
    rintro rfl
    have hg := htext.1 g (by simp)
    rw [hgap g List.mem_cons_self] at hg
    cases hg
  refine ⟨⟨fun c hc => htext.1 c ?_, fun c hc => ?_⟩, hname⟩
  · simp only [List.append_assoc]
    rw [List.head?_append, Option.mem_def.mp hc]
    rfl
  · -- with a blank at its end the name would not come before the whole of the white space
    rw [← Bool.not_eq_true]
    intro hblank
    obtain ⟨front, rfl⟩ := List.getLast?_eq_some_iff.mp hc
    have hearlier : AliasAfter (front ++ [c] ++ (g :: gap) ++ [a, s] ++ gap' ++ rest) front :=
      ⟨c :: g :: gap, a, s, gap', rest, ⟨List.forall_mem_cons.mpr ⟨hblank, hgap⟩, by simp⟩, has,
        hgap', by simp⟩
    have hlength := hleast front hearlier
    rw [List.length_append, List.length_singleton] at hlength
    omega

theorem listedName?_of_trim (h : trim item ≠ []) :
    listedName? item = some (aliasMark.textBefore none (trim item)) := by
  obtain ⟨before, after, -, -, htight, -⟩ := exists_eq_trim item
  obtain ⟨hname, hne⟩ := BeforeAlias.tight htight h (beforeAlias_textBefore none (trim item))
  unfold listedName?
  simp only [trim_eq_self_iff.mpr hname, List.isEmpty_eq_false_iff.mpr hne]
  rfl

theorem listedName?_eq_some_iff : listedName? item = some name ↔ ItemNames item name := by
  obtain ⟨before, after, hbefore, hafter, htight, hitem⟩ := exists_eq_trim item
  by_cases hne : trim item = []
  · have hnone : listedName? item = none := by
      unfold listedName?
      rw [hne]
      rfl
    rw [hnone]
    constructor
    · rintro ⟨⟩
    · rintro ⟨before, text, after, hbefore, hafter, htext, htextne, rfl, -⟩
      rw [trim_append hbefore htext hafter] at hne
      exact absurd hne htextne
  · rw [listedName?_of_trim hne]
    constructor
    · intro h
      cases h
      exact ⟨before, _, after, hbefore, hafter, htight, hne, hitem, beforeAlias_textBefore none _⟩
    · rintro ⟨before, text, after, hbefore, hafter, htext, -, rfl, hname⟩
      rw [trim_append hbefore htext hafter]
      exact congrArg some ((beforeAlias_textBefore none text).unique hname)

/-- White space behind an item makes no difference. -/
theorem listedName?_append {after : List Char} (hafter : Blank after) (item : List Char) :
    listedName? (item ++ after) = listedName? item := by
  obtain ⟨front, back, hfront, hback, htight, hitem⟩ := exists_eq_trim item
  have htrim : trim (front ++ trim item ++ (back ++ after)) = trim item :=
    trim_append hfront htight (List.forall_mem_append.mpr ⟨hback, hafter⟩)
  rw [← List.append_assoc, ← hitem] at htrim
  unfold listedName?
  rw [htrim]

/-- Nor do blanks behind a list. -/
theorem listedNames_append {gap : List Char} (hgap : Spaces gap) (listing : List Char) :
    listedNames (listing ++ gap) = listedNames listing := by
  refine filterMap_pieces_append (fun c hc => ?_) (listedName?_append hgap.blank) listing
  rw [beq_eq_false_iff_ne]
  rintro rfl
  exact absurd (hgap ',' hc) (by decide)

theorem mem_listedNames_iff {listing : List Char} : name ∈ listedNames listing ↔
    ∃ item ∈ pieces (· == ',') listing, ItemNames item name := by
  unfold listedNames
  simp only [List.mem_filterMap, listedName?_eq_some_iff]

/-- An `as` in capitals renames, one at the end of an item is part of it. -/
example : listedNames "a.b AS c ,x as ".toList = ["a.b".toList, "x as".toList] := by decide

end Items

/-! ## Lines -/

/-- **The search for `import` finds the names of the list of the line.** -/
theorem mem_importNames_iff {line name : List Char} (hline : '\n' ∉ line) :
    name ∈ (importStatement.names none line).flatMap listedNames ↔
      ∃ listing, ImportLine line listing ∧ name ∈ listedNames listing := by
  rw [List.mem_flatMap]
  constructor
  · rintro ⟨front, hfront, hname⟩
    obtain ⟨gap, hgap, himport⟩ := importLine_of_mem_names hline hfront
    exact ⟨front ++ gap, himport, by rwa [listedNames_append hgap]⟩
  · rintro ⟨listing, himport, hname⟩
    obtain ⟨front, gap, hfront, hgap, rfl⟩ := himport.exists_mem_names hline
    exact ⟨front, hfront, by rwa [listedNames_append hgap] at hname⟩

theorem mem_map_trim_fromNames_iff {line name : List Char} (hline : '\n' ∉ line) :
    name ∈ (fromStatement.names none line).map trim ↔ FromLine line name := by
  have htrim : ∀ name, FromLine line name → trim name = name := by
    rintro name ⟨-, -, -, -, -, -, -, ⟨hdotted, -⟩, -⟩
    exact trim_of_no_blank fun c hc => isBlank_of_isDotted (hdotted c hc)
  simp only [List.mem_map, mem_fromNames_iff hline]
  constructor
  · rintro ⟨name, h, rfl⟩
    rwa [htrim name h]
  · exact fun h => ⟨name, h, htrim name h⟩

/-- **A text names what the grammar says of its lines and nothing else.** -/
theorem mem_dottedSpecifiers_iff {text name : List Char} :
    name ∈ dottedSpecifiers text ↔ ∃ line ∈ pieces (· == '\n') text, LineNames line name := by
  have hnewline : ∀ line ∈ pieces (· == '\n') text, '\n' ∉ line :=
    fun line hline hmem => absurd (mem_of_mem_pieces hline hmem).2 (by decide)
  unfold dottedSpecifiers
  rw [Search.names_eq_flatMap fromStatement_isLinewise.inline,
    Search.names_eq_flatMap importStatement_isLinewise.inline, List.map_flatMap,
    List.flatMap_assoc, List.mem_append, List.mem_flatMap, List.mem_flatMap]
  constructor
  · rintro (⟨line, hline, h⟩ | ⟨line, hline, h⟩)
    · exact ⟨line, hline, .source ((mem_map_trim_fromNames_iff (hnewline line hline)).mp h)⟩
    · obtain ⟨listing, himport, hname⟩ := (mem_importNames_iff (hnewline line hline)).mp h
      obtain ⟨item, hitem, hname⟩ := mem_listedNames_iff.mp hname
      exact ⟨line, hline, .listed himport hitem hname⟩
  · rintro ⟨line, hline, h⟩
    cases h with
    | source h =>
        exact Or.inl ⟨line, hline, (mem_map_trim_fromNames_iff (hnewline line hline)).mpr h⟩
    | listed himport hitem hname =>
        exact Or.inr ⟨line, hline, (mem_importNames_iff (hnewline line hline)).mpr
          ⟨_, himport, mem_listedNames_iff.mpr ⟨_, hitem, hname⟩⟩⟩

/-- What comes before an alias is where the text begins. -/
theorem BeforeAlias.begins {text name : List Char} (h : BeforeAlias text name) : name <+: text := by
  rcases h with ⟨rfl, -⟩ | ⟨hfirst, -⟩
  · exact List.prefix_refl name
  · exact prefix_of_aliasAfter hfirst

/-- **What a line names is not empty and has no slash.** -/
theorem LineNames.isName {line name : List Char} (h : LineNames line name) :
    name ≠ [] ∧ '/' ∉ name := by
  cases h with
  | source h =>
      obtain ⟨indent, gap, gap', rest, -, -, -, ⟨hdotted, hne⟩, -⟩ := h
      refine ⟨hne, fun hslash => ?_⟩
      exact absurd (hdotted _ hslash) (by decide)
  | listed hline hitem hname =>
      obtain ⟨indent, gap, comment, -, -, -, hlisted, -⟩ := hline
      obtain ⟨before, text, after, -, -, htext, hne, rfl, hbefore⟩ := hname
      refine ⟨(hbefore.tight htext hne).2, fun hslash => ?_⟩
      have hmem := hbefore.begins.subset hslash
      have hlist := (mem_of_mem_pieces hitem (c := '/') (by simp [hmem])).1
      exact absurd (hlisted _ hlist) (by decide)

/-- The same of a specifier of a whole text. -/
theorem isName_of_mem_specifiersOf {text : List Char} {specifier : String}
    (h : specifier ∈ specifiersOf .python text) :
    specifier.toList ≠ [] ∧ '/' ∉ specifier.toList := by
  obtain ⟨line, -, hline⟩ := mem_dottedSpecifiers_iff.mp (mem_ofList_map_ofList.mp h)
  exact hline.isName

end SourceAtlas.Extract
