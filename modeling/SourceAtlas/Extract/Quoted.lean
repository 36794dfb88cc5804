/-
# SourceAtlas.Extract.Quoted — the specifiers of ECMAScript text.

Four forms of statement name a module between two quotes.  A statement of a form can begin at any
character; it is found by its opening word, the text up to the first quote, the quoted specifier
and, for the two call forms, the closing parenthesis.  Statements of one form are taken from left
to right and never overlap; the forms do not see each other.
-/
import SourceAtlas.Text.Piece

namespace SourceAtlas.Extract

open Text

/-- The three characters that open and close a specifier: the double quote, the single quote and
the grave accent. -/
def isQuote (c : Char) : Bool :=
  c.toNat == 0x22 || c.toNat == 0x27 || c.toNat == 0x60

/-- The ways to name a module in ECMAScript. -/
inductive QuotedForm where
  /-- `import … from "module"`. -/
  | clause
  /-- `import "module"`. -/
  | bare
  /-- `require("module")`. -/
  | require
  /-- `import("module")`. -/
  | dynamic
  deriving DecidableEq, Repr

namespace QuotedForm

/-- Every form. -/
def all : List QuotedForm := [clause, bare, require, dynamic]

/-- The characters that a statement of the form begins with. -/
def opening : QuotedForm → List Char
  | clause => ['i', 'm', 'p', 'o', 'r', 't']
  | bare => ['i', 'm', 'p', 'o', 'r', 't']
  | require => ['r', 'e', 'q', 'u', 'i', 'r', 'e', '(']
  | dynamic => ['i', 'm', 'p', 'o', 'r', 't', '(']

/-- Whether the text begins with white space. -/
def startsBlank (text : List Char) : Bool :=
  text.head?.any isBlank

/-- Whether the gap of a clause ends in the word `from` and white space, and has white space before
that word. -/
def gapIsClause (gap : List Char) : Bool :=
  -- the gap is read from its end, where the word must stand
  match gap.reverse.span isBlank with
  | ([], _) => false
  | (_ :: _, 'm' :: 'o' :: 'r' :: 'f' :: before) => startsBlank before.reverse
  | _ => false

/-- Whether the text between the opening and the first quote is right for the form. -/
def gapFits : QuotedForm → List Char → Bool
  | clause, gap => gapIsClause gap
  | bare, gap => !gap.isEmpty && gap.all isBlank
  | require, gap => gap.all isBlank
  | dynamic, gap => gap.all isBlank

/-- What follows a statement, given what follows its closing quote: the call forms want a closing
parenthesis, which white space may precede. -/
def afterQuote? : QuotedForm → List Char → Option (List Char)
  | clause, rest => some rest
  | bare, rest => some rest
  | require, rest => afterParenthesis? rest
  | dynamic, rest => afterParenthesis? rest
where
  /-- What follows the parenthesis. -/
  afterParenthesis? (rest : List Char) : Option (List Char) :=
    match rest.dropWhile isBlank with
    | ')' :: more => some more
    | _ => none

/-- A statement of the form at the head of the text: its specifier and what follows it. -/
def match? (form : QuotedForm) (text : List Char) : Option (List Char × List Char) :=
  if form.opening.isPrefixOf text then
    let body := text.drop form.opening.length
    let gap := body.takeWhile (!isQuote ·)
    match body.dropWhile (!isQuote ·) with
    | [] => none
    | _ :: quoted =>
      -- any of the three quotes closes, not only the one that opened
      let specifier := quoted.takeWhile (!isQuote ·)
      match quoted.dropWhile (!isQuote ·) with
      | [] => none
      | _ :: rest =>
        if form.gapFits gap && !specifier.isEmpty then
          (form.afterQuote? rest).map (specifier, ·)
        else none
  else none

theorem length_afterQuote?_le {form : QuotedForm} {rest more : List Char}
    (h : form.afterQuote? rest = some more) : more.length ≤ rest.length := by
  have paren : ∀ {m : List Char}, afterQuote?.afterParenthesis? rest = some m →
      m.length ≤ rest.length := by
    intro m hm
    unfold afterQuote?.afterParenthesis? at hm
    have hle : (rest.dropWhile isBlank).length ≤ rest.length :=
      (List.dropWhile_sublist _).length_le
    split at hm
    · rename_i tail htail
      rw [htail] at hle
      cases hm
      exact Nat.le_trans (Nat.le_succ _) hle
    · cases hm
  cases form with
  | clause => cases h; exact Nat.le_refl _
  | bare => cases h; exact Nat.le_refl _
  | require => exact paren h
  | dynamic => exact paren h

/-- A statement uses up at least one character. -/
theorem length_lt_of_match? {form : QuotedForm} {text specifier rest : List Char}
    (h : form.match? text = some (specifier, rest)) : rest.length < text.length := by
  unfold match? at h
  split at h
  · simp only at h
    split at h
    · cases h
    · rename_i q quoted hquoted
      split at h
      · cases h
      · rename_i q' rest' hrest
        split at h
        · obtain ⟨more, hmore, heq⟩ := Option.map_eq_some_iff.mp h
          cases heq
          have h1 := length_afterQuote?_le hmore
          have h2 : (quoted.dropWhile (!isQuote ·)).length ≤ quoted.length :=
            (List.dropWhile_sublist _).length_le
          have h3 : ((text.drop form.opening.length).dropWhile (!isQuote ·)).length ≤
              (text.drop form.opening.length).length :=
            (List.dropWhile_sublist _).length_le
          rw [hrest] at h2
          rw [hquoted] at h3
          simp only [List.length_cons, List.length_drop] at h2 h3
          omega
        · cases h
  · cases h

/-- The specifiers of all statements of the form, in order. -/
def specifiers (form : QuotedForm) : List Char → List (List Char)
  | [] => []
  | c :: text =>
    match h : form.match? (c :: text) with
    | some (specifier, rest) =>
      have := length_lt_of_match? h
      specifier :: specifiers form rest
    | none => specifiers form text
termination_by text => text.length
decreasing_by all_goals (simp only [List.length_cons] at *; omega)

end QuotedForm

/-- The specifiers of ECMAScript text, form by form. -/
def quotedSpecifiers (text : List Char) : List (List Char) :=
  QuotedForm.all.flatMap (·.specifiers text)

end SourceAtlas.Extract
