/-
# SourceAtlas.Proofs.Render.ReadBack — a flowchart's text read back.

A label stands between double quotes, and a line ends at its line break.  A reader who knows no more
than this finds the shown paths in the text of a chart without groups exactly if no shown path holds
a double quote or a line break; these are written into the label as they are, and no label that is
read can hold them.  Then the labels are the shown paths in their order, and the links, taken back
to paths, are the imports between them (`toMermaid_readBack`).  Every other character may stand in a
path, brackets and arrows included.
-/
import SourceAtlas.Proofs.Render.Flowchart

namespace SourceAtlas.Render

open FlowLine

variable {report : Report} {id id' : String}

/-! ## A reader of labels -/

/-- Read a label behind an identifier: in brackets, from one double quote to the next. -/
def labelBehind? (id : String) : List Char → Option NamedPath
  | '[' :: '"' :: rest =>
    if rest.dropWhile (· != '"') = ['"', ']'] then
      some ⟨String.ofList (rest.takeWhile (· != '"')), id⟩
    else none
  | _ => none

/-- Read an identifier and its label, if the line consists of nothing else. -/
def labelled? (line : String) : Option NamedPath :=
  let text := line.toList.dropWhile (· == ' ')
  if text.takeWhile isIdentifierChar = [] then none
  else
    labelBehind? (String.ofList (text.takeWhile isIdentifierChar)) (text.dropWhile isIdentifierChar)

/-- The labels in a text, each with its identifier. -/
def labels (text : String) : List NamedPath :=
  (Text.splitAt '\n' text).filterMap labelled?

/-- The pairs of identifiers that are linked in a text. -/
def links (text : String) : List (String × String) :=
  said link? (Text.splitAt '\n' text)

/-- The path can stand between double quotes in a line. -/
def IsQuotable (path : String) : Prop :=
  '"' ∉ path.toList ∧ '\n' ∉ path.toList

/-! ## What is read -/

theorem labelBehind?_eq_some {rest : List Char} {n : NamedPath} (h : labelBehind? id rest = some n) :
    '"' ∉ n.path.toList ∧ n.path.toList ⊆ rest := by
  unfold labelBehind? at h
  split at h
  · split at h
    · cases h
      rw [String.toList_ofList]
      refine ⟨fun hmem => ?_, fun c hc => ?_⟩
      · have hstop := List.mem_takeWhile_imp hmem
        simp at hstop
      · exact List.mem_cons_of_mem _ (List.mem_cons_of_mem _ ((List.takeWhile_sublist _).subset hc))
    · cases h
  · cases h

/-- **A label that is read in a text holds no double quote and no line break.** -/
theorem isQuotable_of_mem_labels {text : String} {n : NamedPath} (h : n ∈ labels text) :
    IsQuotable n.path := by
  obtain ⟨line, hline, hread⟩ := List.mem_filterMap.mp h
  unfold labelled? at hread
  simp only at hread
  split at hread
  · cases hread
  · obtain ⟨hquote, hsub⟩ := labelBehind?_eq_some hread
    refine ⟨hquote, fun hbreak => ?_⟩
    have hmem := (List.dropWhile_sublist _).subset ((List.dropWhile_sublist _).subset (hsub hbreak))
    exact Text.not_mem_of_mem_splitAt hline hmem

/-- A line that begins with an identifier, however far in, is read behind it. -/
theorem labelled?_word {line : String} {indent rest : List Char} (h : IsIdentifier id)
    (hindent : ∀ c ∈ indent, (c == ' ') = true)
    (hrest : ∀ c ∈ rest.head?, isIdentifierChar c = false)
    (hline : line.toList = indent ++ (id.toList ++ rest)) :
    labelled? line = labelBehind? id rest := by
  have hopen : line.toList.dropWhile (· == ' ') = id.toList ++ rest := by
    rw [hline, List.dropWhile_append_of_pos hindent]
    exact dropWhile_blank h rest
  have hne : id.toList ≠ [] := by
    obtain ⟨first, more, hlist, -, -⟩ := h
    rw [hlist]
    exact List.cons_ne_nil _ _
  unfold labelled?
  simp only
  rw [hopen, Text.takeWhile_append_of_stop h.all hrest, Text.dropWhile_append_of_stop h.all hrest,
    if_neg hne, String.ofList_toList]

/-- Behind an identifier and a blank there is no label. -/
theorem labelled?_blank {line : String} (indent rest : List Char)
    (hindent : ∀ c ∈ indent, (c == ' ') = true) (h : IsIdentifier id)
    (hline : line.toList = indent ++ (id.toList ++ ' ' :: rest)) : labelled? line = none := by
  rw [labelled?_word h hindent (by rintro c ⟨rfl⟩; rfl) hline]
  rfl

theorem blank_indent : ∀ c ∈ "    ".toList, (c == ' ') = true :=
  List.all_eq_true.mp (by decide)

/-- **The definition of a path without a double quote is read as the path.** -/
theorem labelled?_define {n : NamedPath} (h : IsIdentifier n.id) (hquote : '"' ∉ n.path.toList) :
    labelled? ("    " ++ define n) = some n := by
  have hline : ("    " ++ define n).toList =
      "    ".toList ++ (n.id.toList ++ ('[' :: '"' :: (n.path.toList ++ ['"', ']']))) := by
    simp [define]
  have hpath : ∀ c ∈ n.path.toList, (c != '"') = true := fun c hc =>
    bne_iff_ne.mpr fun heq => hquote (heq ▸ hc)
  have hstop : ∀ c ∈ ['"', ']'].head?, (c != '"') = false := by
    rintro c ⟨rfl⟩
    rfl
  rw [labelled?_word h blank_indent (by rintro c ⟨rfl⟩; rfl) hline, labelBehind?,
    Text.takeWhile_append_of_stop hpath hstop, Text.dropWhile_append_of_stop hpath hstop, if_pos rfl,
    String.ofList_toList]

theorem isIdentifier_flowchart : IsIdentifier "flowchart" :=
  ⟨'f', "lowchart".toList, rfl, rfl, List.all_eq_true.mp (by decide)⟩

theorem labelled?_header (orientation : String) : labelled? ("flowchart " ++ orientation) = none := by
  refine labelled?_blank [] orientation.toList (List.forall_mem_nil _) isIdentifier_flowchart ?_
  simp

/-- Behind the definitions nothing has a label. -/
theorem labelled?_of_mem_linesBehind {showAll highlight : Bool} {line : String}
    (hline : line ∈ linesBehind report showAll highlight) : labelled? line = none := by
  rcases mem_linesBehind hline with rfl | ⟨source, target, hsource, -, rfl⟩ | ⟨id, look, -, -, rfl⟩
  · rfl
  · exact labelled?_blank _ ('-' :: '-' :: '>' :: ' ' :: target.toList) blank_indent hsource (by simp)
  · exact labelled?_blank _ (id.toList ++ ' ' :: look.toList) blank_indent isIdentifier_style
      (by simp [styleLine])

/-! ## The lines of a text -/

theorem IsIdentifier.break_not_mem (h : IsIdentifier id) : '\n' ∉ id.toList := fun hmem => by
  have hchar := h.all _ hmem
  cases hchar

/-- No line of a chart of paths that can be quoted holds a line break. -/
theorem break_not_mem_mermaidLines {options : MermaidOptions}
    (distinct : (report.graphNodes.map (·.id)).Nodup) (plain : options.groupByDirectory = false)
    (oneLine : '\n' ∉ options.orientation.toList)
    (hquotable : ∀ path ∈ shownPaths report options.showAll, IsQuotable path) :
    ∀ line ∈ mermaidLines report options, '\n' ∉ line.toList := by
  intro line hline
  rw [mermaidLines_eq, plain, definitionsOf_plain distinct] at hline
  rcases List.mem_cons.mp hline with rfl | hline
  · simpa using oneLine
  rcases List.mem_append.mp hline with hline | hline
  · obtain ⟨n, hn, rfl⟩ := List.mem_map.mp hline
    have hid := (isIdentifier_of_mem_namesOf n hn).break_not_mem
    have hpath := (hquotable n.path (map_path_namesOf report _ ▸ List.mem_map_of_mem hn)).2
    simp [define, hid, hpath]
  · rcases mem_linesBehind hline with rfl | ⟨source, target, hsource, htarget, rfl⟩ |
      ⟨id, look, hid, hlook, rfl⟩
    · decide
    · simp [hsource.break_not_mem, htarget.break_not_mem]
    · simp [styleLine, hid.break_not_mem, hlook]

/-- The lines of the text of such a chart are the lines of the chart. -/
theorem splitAt_toMermaid {options : MermaidOptions}
    (hlines : ∀ line ∈ mermaidLines report options, '\n' ∉ line.toList) :
    Text.splitAt '\n' (toMermaid report options) = mermaidLines report options :=
  Text.splitAt_intercalate rfl (List.cons_ne_nil _ _) hlines

/-- The definitions of paths that can be quoted are read in their order, and nothing else is. -/
theorem filterMap_labelled?_mermaidLines {options : MermaidOptions}
    (distinct : (report.graphNodes.map (·.id)).Nodup) (plain : options.groupByDirectory = false)
    (hquotable : ∀ path ∈ shownPaths report options.showAll, IsQuotable path) :
    (mermaidLines report options).filterMap labelled? = namesOf report options.showAll := by
  have hdefined : ((namesOf report options.showAll).map fun n => "    " ++ define n).filterMap
      labelled? = namesOf report options.showAll := by
    rw [List.filterMap_map]
    refine (List.filterMap_congr fun n hn => ?_).trans List.filterMap_some
    have hpath := hquotable n.path (map_path_namesOf report _ ▸ List.mem_map_of_mem hn)
    exact labelled?_define (isIdentifier_of_mem_namesOf n hn) hpath.1
  have hbehind : (linesBehind report options.showAll options.highlightCritical).filterMap
      labelled? = [] :=
    List.filterMap_eq_nil_iff.mpr fun line hline => labelled?_of_mem_linesBehind hline
  rw [mermaidLines_eq, plain, definitionsOf_plain distinct,
    List.filterMap_cons_none (labelled?_header _), List.filterMap_append, hdefined, hbehind,
    List.append_nil]

/-! ## The text of a chart -/

/-- **The text of a chart tells what the chart shows exactly if every shown path can be quoted.**
Then the labels are the shown paths in their order, under identifiers of their own, and the links
are the imports between shown paths in theirs. -/
theorem toMermaid_readBack (report : Report) (options : MermaidOptions)
    (distinct : (report.graphNodes.map (·.id)).Nodup) (plain : options.groupByDirectory = false)
    (oneLine : '\n' ∉ options.orientation.toList) :
    let text := toMermaid report options
    let shown := shownPaths report options.showAll
    ((∀ path, path ∈ (labels text).map (·.path) ↔ path ∈ shown) ↔ ∀ path ∈ shown, IsQuotable path) ∧
    ((∀ path ∈ shown, IsQuotable path) →
      (labels text).map (·.path) = shown ∧ ((labels text).map (·.id)).Nodup ∧
      (links text).map (edgeOf? (labels text)) = (shownEdges report options.showAll).map some) := by
  intro text shown
  have hread : (∀ path ∈ shown, IsQuotable path) →
      Text.splitAt '\n' text = mermaidLines report options ∧
        labels text = namesOf report options.showAll := by
    intro hquotable
    have hlines := splitAt_toMermaid (break_not_mem_mermaidLines distinct plain oneLine hquotable)
    refine ⟨hlines, ?_⟩
    rw [labels, hlines]
    exact filterMap_labelled?_mermaidLines distinct plain hquotable
  refine ⟨⟨fun hsame path hpath => ?_, fun hquotable path => ?_⟩, fun hquotable => ?_⟩
  · obtain ⟨n, hn, rfl⟩ := List.mem_map.mp ((hsame path).mpr hpath)
    exact isQuotable_of_mem_labels hn
  · rw [(hread hquotable).2, map_path_namesOf]
  · obtain ⟨hlines, hlabels⟩ := hread hquotable
    rw [links, hlines, hlabels]
    exact ⟨map_path_namesOf _ _, (List.nodup_append.mp (nodup_ids report options.showAll)).1,
      map_edgeOf_said_link distinct options⟩

/-- A report whose paths look like the syntax of a chart, though none holds a quote or a
line break. -/
def bracketedReport : Report :=
  { collidingReport with
    mainFile := some "a[b].py"
    graphNodes := [⟨"a[b].py", "a[b].py", 0⟩, ⟨"x --> y.py", "x --> y.py", 0⟩, ⟨"z]; end", "z]; end", 0⟩]
    graphEdges := [⟨"a[b].py", "x --> y.py"⟩, ⟨"x --> y.py", "z]; end"⟩] }

theorem toMermaid_readBack_bracketed :
    (bracketedReport.graphNodes.map (·.id)).Nodup ∧ '\n' ∉ "LR".toList ∧
      (labels (toMermaid bracketedReport ⟨"LR", false, false, true⟩)).map (·.path) =
        ["a[b].py", "x --> y.py", "z]; end"] := by
  have distinct : (bracketedReport.graphNodes.map (·.id)).Nodup := by decide +kernel
  have oneLine : '\n' ∉ "LR".toList := by decide +kernel
  have hquotable : ∀ path ∈ shownPaths bracketedReport false, IsQuotable path := by
    unfold IsQuotable
    decide +kernel
  obtain ⟨hshown, -, -⟩ := (toMermaid_readBack bracketedReport ⟨"LR", false, false, true⟩ distinct rfl
    oneLine).2 hquotable
  exact ⟨distinct, oneLine, hshown.trans (by decide +kernel)⟩

/-- A report of one file with a double quote in its name. -/
def quotedReport : Report :=
  { collidingReport with
    mainFile := none
    graphNodes := [⟨"a\"b.py", "a\"b.py", 0⟩]
    graphEdges := [] }

/-- A report of one file whose name closes the label, breaks the line and opens a label of
its own. -/
def brokenReport : Report :=
  { collidingReport with
    mainFile := none
    graphNodes := [⟨"a.py\"]\n    z[\"z.py", "a.py\"]\n    z[\"z.py", 0⟩]
    graphEdges := [] }

/-- A double quote in a path ends the label too early, and nothing is read; with a line break the
one file is read as two. -/
theorem labels_quotedReport :
    shownPaths quotedReport true = ["a\"b.py"] ∧
      labels (toMermaid quotedReport ⟨"LR", false, true, true⟩) = [] ∧
      (shownPaths brokenReport true).length = 1 ∧
      (labels (toMermaid brokenReport ⟨"LR", false, true, true⟩)).map (·.path) = ["a.py", "z.py"] := by
  decide +kernel

end SourceAtlas.Render
