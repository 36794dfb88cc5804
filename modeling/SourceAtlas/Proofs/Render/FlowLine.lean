/-
# SourceAtlas.Proofs.Render.FlowLine — the lines of a flowchart, read.

A flowchart is text, and what it says is said by its lines: nodes with their paths, links between
identifiers, the frames of groups, styles.  `FlowLine.read?` reads one line; it knows only the
syntax of flowcharts and nothing of the report.  Each kind of line that is written is read as what
it says (`read?_definition`, `read?_link` and so on), and the first line and blank lines say
nothing.
-/
import SourceAtlas.Proofs.Render.Identifier
import SourceAtlas.Proofs.Text.Piece

namespace SourceAtlas.Render

/-- What a line of a flowchart says. -/
inductive FlowLine where
  /-- An identifier is defined, with a path for its label. -/
  | node (named : NamedPath)
  | link (source target : String)
  /-- A group begins. -/
  | opening (id title : String)
  /-- A group ends. -/
  | closing
  | style (id look : String)
  deriving DecidableEq

namespace FlowLine

/-- What a node definition defines. -/
def node? : FlowLine → Option NamedPath
  | node named => some named
  | _ => none

/-- The identifiers that a link joins. -/
def link? : FlowLine → Option (String × String)
  | link source target => some (source, target)
  | _ => none

/-- The identifier of a group that begins. -/
def opening? : FlowLine → Option String
  | opening id _ => some id
  | _ => none

/-- What a style says of an identifier. -/
def style? : FlowLine → Option (String × String)
  | style id look => some (id, look)
  | _ => none

/-- Read a keyword's identifier and what is said of it, given the text behind the keyword. -/
def readKeyword? (word : String) (text : List Char) : Option FlowLine :=
  let id := String.ofList (text.takeWhile isIdentifierChar)
  match text.dropWhile isIdentifierChar with
  | '[' :: title =>
    if word = "subgraph" then some (opening id (String.ofList title.dropLast)) else none
  | ' ' :: look => if word = "style" then some (style id (String.ofList look)) else none
  | _ => none

/-- Read what a line says, given its first word and the text behind the word. -/
def readBehind? (word : String) : List Char → Option FlowLine
  | [] => if word = "end" then some closing else none
  | '[' :: '"' :: rest =>
    match rest.reverse with
    | ']' :: '"' :: label => some (node ⟨String.ofList label.reverse, word⟩)
    | _ => none
  | ' ' :: text =>
    if ['-', '-', '>', ' '].isPrefixOf text then
      let target := text.drop 4
      if target.all isIdentifierChar then some (link word (String.ofList target)) else none
    else readKeyword? word text
  | _ => none

/-- Read a line without its indentation. -/
def readText? (text : List Char) : Option FlowLine :=
  readBehind? (String.ofList (text.takeWhile isIdentifierChar)) (text.dropWhile isIdentifierChar)

/-- Read a line; lines of the flowchart are indented by four blanks or more. -/
def read? (line : String) : Option FlowLine :=
  match line.toList with
  | ' ' :: ' ' :: ' ' :: ' ' :: text => readText? (text.dropWhile (· == ' '))
  | _ => none

/-! ## Words and indentation -/

variable {id id' : String}

/-- A word in front of what no word goes on with is read as the word. -/
theorem readText?_word {rest : List Char} (h : IsIdentifier id)
    (hrest : ∀ c ∈ rest.head?, isIdentifierChar c = false) :
    readText? (id.toList ++ rest) = readBehind? id rest := by
  unfold readText?
  rw [Text.takeWhile_append_of_stop h.all hrest, Text.dropWhile_append_of_stop h.all hrest,
    String.ofList_toList]

/-- No identifier begins with a blank. -/
theorem dropWhile_blank (h : IsIdentifier id) (rest : List Char) :
    (id.toList ++ rest).dropWhile (· == ' ') = id.toList ++ rest := by
  obtain ⟨first, more, hlist, hfirst, -⟩ := h
  have hne : (first == ' ') = false := by
    rw [beq_eq_false_iff_ne]
    rintro rfl
    cases hfirst
  rw [hlist, List.cons_append, List.dropWhile_cons_of_neg (by rw [hne]; exact Bool.false_ne_true)]

/-- A line that begins with a word is read behind the word. -/
theorem read?_word {line : String} {rest : List Char} (h : IsIdentifier id)
    (hrest : ∀ c ∈ rest.head?, isIdentifierChar c = false)
    (hline : line.toList = "    ".toList ++ (id.toList ++ rest)) :
    read? line = readBehind? id rest := by
  have hopen : line.toList = ' ' :: ' ' :: ' ' :: ' ' :: (id.toList ++ rest) := hline
  unfold read?
  rw [hopen]
  show readText? ((id.toList ++ rest).dropWhile (· == ' ')) = _
  rw [dropWhile_blank h, readText?_word h hrest]

/-- Further blanks in front make no difference. -/
theorem read?_blanks (text : String) : read? ("        " ++ text) = read? ("    " ++ text) := by
  have hfour : ("    " ++ text).toList = ' ' :: ' ' :: ' ' :: ' ' :: text.toList :=
    String.toList_append
  have height : ("        " ++ text).toList =
      ' ' :: ' ' :: ' ' :: ' ' :: ' ' :: ' ' :: ' ' :: ' ' :: text.toList :=
    String.toList_append
  unfold read?
  rw [hfour, height]
  rfl

/-! ## Each kind of line -/

/-- The text of a node definition. -/
def define (named : NamedPath) : String :=
  named.id ++ "[\"" ++ named.path ++ "\"]"

/-- **A definition is read as the identifier and the whole path**, whatever the path holds. -/
theorem read?_define {named : NamedPath} (h : IsIdentifier named.id) :
    read? ("    " ++ define named) = some (node named) := by
  have hline : ("    " ++ define named).toList =
      "    ".toList ++ (named.id.toList ++ ('[' :: '"' :: (named.path.toList ++ ['"', ']']))) := by
    simp [define]
  rw [read?_word h (by rintro c ⟨rfl⟩; rfl) hline]
  simp [readBehind?]

theorem read?_link (h : IsIdentifier id) (h' : IsIdentifier id') :
    read? ("    " ++ id ++ " --> " ++ id') = some (link id id') := by
  have hline : ("    " ++ id ++ " --> " ++ id').toList =
      "    ".toList ++ (id.toList ++ (' ' :: '-' :: '-' :: '>' :: ' ' :: id'.toList)) := by
    simp
  rw [read?_word h (by rintro c ⟨rfl⟩; rfl) hline]
  have hall : id'.toList.all isIdentifierChar = true := List.all_eq_true.mpr h'.all
  simp [readBehind?, hall]

/-- Behind a keyword comes an identifier. -/
theorem readBehind?_keyword {word : String} {rest : List Char} (h : IsIdentifier id) :
    readBehind? word (' ' :: (id.toList ++ rest)) = readKeyword? word (id.toList ++ rest) := by
  obtain ⟨first, more, hlist, hfirst, -⟩ := h
  have hne : ('-' == first) = false := by
    rw [beq_eq_false_iff_ne]
    rintro rfl
    cases hfirst
  have hlead : ['-', '-', '>', ' '].isPrefixOf (id.toList ++ rest) = false := by
    rw [hlist, List.cons_append, List.isPrefixOf_cons_cons, hne, Bool.false_and]
  show (if ['-', '-', '>', ' '].isPrefixOf (id.toList ++ rest) = true then _ else _) = _
  rw [hlead]
  rfl

theorem isIdentifier_subgraph : IsIdentifier "subgraph" :=
  ⟨'s', "ubgraph".toList, rfl, rfl, List.all_eq_true.mp (by decide)⟩

theorem isIdentifier_style : IsIdentifier "style" :=
  ⟨'s', "tyle".toList, rfl, rfl, List.all_eq_true.mp (by decide)⟩

theorem isIdentifier_end : IsIdentifier "end" :=
  ⟨'e', "nd".toList, rfl, rfl, List.all_eq_true.mp (by decide)⟩

theorem read?_opening (h : IsIdentifier id) (title : String) :
    read? ("    subgraph " ++ id ++ "[" ++ title ++ "]") = some (opening id title) := by
  have hline : ("    subgraph " ++ id ++ "[" ++ title ++ "]").toList =
      "    ".toList ++
        ("subgraph".toList ++ (' ' :: (id.toList ++ '[' :: (title.toList ++ [']'])))) := by
    simp
  rw [read?_word isIdentifier_subgraph (by rintro c ⟨rfl⟩; rfl) hline, readBehind?_keyword h]
  have hstop : ∀ c ∈ ('[' :: (title.toList ++ [']'])).head?, isIdentifierChar c = false := by
    rintro c ⟨rfl⟩
    rfl
  unfold readKeyword?
  rw [Text.takeWhile_append_of_stop h.all hstop, Text.dropWhile_append_of_stop h.all hstop]
  simp

theorem read?_style (h : IsIdentifier id) (look : String) :
    read? (styleLine id look) = some (style id look) := by
  have hline : (styleLine id look).toList =
      "    ".toList ++ ("style".toList ++ (' ' :: (id.toList ++ ' ' :: look.toList))) := by
    simp [styleLine]
  rw [read?_word isIdentifier_style (by rintro c ⟨rfl⟩; rfl) hline, readBehind?_keyword h]
  have hstop : ∀ c ∈ (' ' :: look.toList).head?, isIdentifierChar c = false := by
    rintro c ⟨rfl⟩
    rfl
  unfold readKeyword?
  rw [Text.takeWhile_append_of_stop h.all hstop, Text.dropWhile_append_of_stop h.all hstop]
  simp

theorem read?_closing : read? "    end" = some closing := by
  have hline : "    end".toList = "    ".toList ++ ("end".toList ++ []) := rfl
  rw [read?_word isIdentifier_end (by rintro c ⟨⟩) hline]
  rfl

/-- The first line says nothing of nodes, whatever the orientation. -/
theorem read?_header (orientation : String) : read? ("flowchart " ++ orientation) = none := by
  have hline : ("flowchart " ++ orientation).toList = 'f' :: ("lowchart " ++ orientation).toList := by
    simp
  unfold read?
  rw [hline]
  rfl

theorem read?_blank : read? "" = none := rfl

end FlowLine

end SourceAtlas.Render
