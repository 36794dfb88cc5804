/-
# SourceAtlas.Proofs.Extract.Quoted — statements from quote to quote.

Whether a statement of a form begins in a run of text without quotes is decided by the run alone:
some tail of it must be the opening and a gap that fits (`leads`).  A run in which no tail leads is
quiet; extraction goes past it and past the quote behind it (`specifiers_quiet`).  A run that leads
takes the text between the next two quotes (`specifiers_leads`).

Import lines are the case of this in which every run is known: the lines of bare imports name
exactly what stands between their quotes, and to the other three forms they are quiet
(`quotedSpecifiers_quotedLines`).  The names may hold anything but quotes, line ends and text that
looks like a statement included, as long as they end in neither a blank nor an opening parenthesis.
-/
import Mathlib.Data.List.TakeDrop
import Mathlib.Data.List.TakeWhile
import SourceAtlas.Extract.Quoted
import SourceAtlas.Proofs.Text.Piece

namespace SourceAtlas.Extract

open Text

namespace QuotedForm

variable {form : QuotedForm}

/-! ## Runs that lead and runs that are quiet -/

/-- **`leads form run`** — the run is the opening of the form and a gap that fits it. -/
def leads (form : QuotedForm) (run : List Char) : Bool :=
  form.opening.isPrefixOf run && form.gapFits (run.drop form.opening.length)

/-- **`quiet form run`** — no tail of the run leads. -/
def quiet (form : QuotedForm) : List Char → Bool
  | [] => true
  | c :: rest => !leads form (c :: rest) && quiet form rest

/-- No quote stands in a text. -/
def NoQuote (text : List Char) : Prop :=
  ∀ c ∈ text, isQuote c = false

theorem noQuote_opening (form : QuotedForm) : NoQuote form.opening := by
  cases form with
  | clause => exact forall_mem_of_all rfl
  | bare => exact forall_mem_of_all rfl
  | require => exact forall_mem_of_all rfl
  | dynamic => exact forall_mem_of_all rfl

theorem takeWhile_run {run : List Char} {q : Char} (hrun : NoQuote run) (hq : isQuote q = true)
    (rest : List Char) : (run ++ q :: rest).takeWhile (!isQuote ·) = run := by
  have hall : ∀ c ∈ run, (!isQuote c) = true := by
    intro c hc
    rw [hrun c hc]
    rfl
  rw [List.takeWhile_append_of_pos hall, List.takeWhile_cons_of_neg (by rw [hq]; simp),
    List.append_nil]

theorem dropWhile_run {run : List Char} {q : Char} (hrun : NoQuote run) (hq : isQuote q = true)
    (rest : List Char) : (run ++ q :: rest).dropWhile (!isQuote ·) = q :: rest := by
  have hall : ∀ c ∈ run, (!isQuote c) = true := by
    intro c hc
    rw [hrun c hc]
    rfl
  rw [List.dropWhile_append_of_pos hall, List.dropWhile_cons_of_neg (by rw [hq]; simp)]

/-- An opening holds no quote, so it stands before the first quote or not at all. -/
theorem isPrefixOf_run {run : List Char} {q : Char} {opening : List Char}
    (hopening : NoQuote opening) (hq : isQuote q = true) (rest : List Char) :
    opening.isPrefixOf (run ++ q :: rest) = opening.isPrefixOf run := by
  induction opening generalizing run with
  | nil => rw [List.isPrefixOf_nil_left, List.isPrefixOf_nil_left]
  | cons a opening ih =>
      have ha := hopening a List.mem_cons_self
      cases run with
      | nil =>
          have hne : (a == q) = false := by
            rw [beq_eq_false_iff_ne]
            intro heq
            rw [heq, hq] at ha
            cases ha
          rw [List.nil_append, List.isPrefixOf_cons_cons, hne]
          rfl
      | cons c run =>
          rw [List.cons_append, List.isPrefixOf_cons_cons, List.isPrefixOf_cons_cons,
            ih fun x hx => hopening x (List.mem_cons_of_mem a hx)]

theorem drop_run {run : List Char} {opening : List Char} (h : opening.isPrefixOf run = true)
    (rest : List Char) : (run ++ rest).drop opening.length = run.drop opening.length ++ rest := by
  apply List.drop_append_of_le_length
  exact (List.isPrefixOf_iff_prefix.mp h).length_le

theorem noQuote_drop {run : List Char} (hrun : NoQuote run) (n : Nat) : NoQuote (run.drop n) :=
  fun c hc => hrun c (List.mem_of_mem_drop hc)

/-! ## One statement -/

/-- A run that does not lead begins no statement. -/
theorem match?_of_not_leads {run : List Char} {q : Char} (hrun : NoQuote run)
    (hq : isQuote q = true) (h : leads form run = false) (rest : List Char) :
    form.match? (run ++ q :: rest) = none := by
  unfold match?
  rw [isPrefixOf_run (noQuote_opening form) hq]
  by_cases hopen : form.opening.isPrefixOf run = true
  · rw [if_pos hopen]
    have hgap : form.gapFits (run.drop form.opening.length) = false := by
      unfold leads at h
      rwa [hopen, Bool.true_and] at h
    have hdrop := noQuote_drop hrun form.opening.length
    simp only [drop_run hopen, takeWhile_run hdrop hq, dropWhile_run hdrop hq, hgap]
    split
    · rfl
    · rfl
  · rw [if_neg hopen]

/-- A run that leads begins a statement, which names what stands between the next two quotes. -/
theorem match?_of_leads {run specifier : List Char} {q q' : Char} (hrun : NoQuote run)
    (hq : isQuote q = true) (hspecifier : NoQuote specifier) (hq' : isQuote q' = true)
    (hne : specifier ≠ []) (h : leads form run = true) (rest : List Char) :
    form.match? (run ++ q :: (specifier ++ q' :: rest)) =
      (form.afterQuote? rest).map (specifier, ·) := by
  unfold leads at h
  obtain ⟨hopen, hgap⟩ := Bool.and_eq_true_iff.mp h
  have hdrop := noQuote_drop hrun form.opening.length
  have hempty : specifier.isEmpty = false := by simpa using hne
  unfold match?
  rw [isPrefixOf_run (noQuote_opening form) hq, if_pos hopen]
  simp only [drop_run hopen, takeWhile_run hdrop hq, dropWhile_run hdrop hq,
    takeWhile_run hspecifier hq', dropWhile_run hspecifier hq', hgap, hempty]
  rfl

theorem match?_of_noQuote {text : List Char} (h : NoQuote text) : form.match? text = none := by
  have hdrop : (text.drop form.opening.length).dropWhile (!isQuote ·) = [] := by
    rw [List.dropWhile_eq_nil_iff]
    intro c hc
    rw [noQuote_drop h _ c hc]
    rfl
  unfold match?
  simp only [hdrop]
  split
  · rfl
  · rfl

/-! ## All statements -/

theorem specifiers_of_none {c : Char} {text : List Char} (h : form.match? (c :: text) = none) :
    form.specifiers (c :: text) = form.specifiers text := by
  rw [specifiers]
  split
  · rename_i heq
    rw [h] at heq
    cases heq
  · rfl

theorem specifiers_of_some {text specifier rest : List Char}
    (h : form.match? text = some (specifier, rest)) :
    form.specifiers text = specifier :: form.specifiers rest := by
  cases text with
  | nil =>
      have hlt := length_lt_of_match? h
      exact absurd hlt (Nat.not_lt_zero _)
  | cons c text =>
      rw [specifiers]
      split
      · rename_i heq
        rw [h] at heq
        cases heq
        rfl
      · rename_i heq
        rw [h] at heq
        cases heq

theorem leads_nil (form : QuotedForm) : leads form [] = false := by
  cases form with
  | clause => rfl
  | bare => rfl
  | require => rfl
  | dynamic => rfl

/-- **Extraction goes past a quiet run** and the quote behind it. -/
theorem specifiers_quiet {run : List Char} {q : Char} (hrun : NoQuote run) (hq : isQuote q = true)
    (h : quiet form run = true) (rest : List Char) :
    form.specifiers (run ++ q :: rest) = form.specifiers rest := by
  induction run with
  | nil => exact specifiers_of_none (match?_of_not_leads hrun hq (leads_nil form) rest)
  | cons c run ih =>
      rw [quiet, Bool.and_eq_true, Bool.not_eq_true'] at h
      have hnone := match?_of_not_leads hrun hq h.1 rest
      rw [List.cons_append] at hnone ⊢
      rw [specifiers_of_none hnone]
      exact ih (fun x hx => hrun x (List.mem_cons_of_mem c hx)) h.2

/-- **A run that leads takes the text between the next two quotes**, if what follows is right. -/
theorem specifiers_leads {run specifier more rest : List Char} {q q' : Char} (hrun : NoQuote run)
    (hq : isQuote q = true) (hspecifier : NoQuote specifier) (hq' : isQuote q' = true)
    (hne : specifier ≠ []) (h : leads form run = true) (hafter : form.afterQuote? rest = some more) :
    form.specifiers (run ++ q :: (specifier ++ q' :: rest)) = specifier :: form.specifiers more := by
  apply specifiers_of_some
  rw [match?_of_leads hrun hq hspecifier hq' hne h, hafter]
  rfl

theorem specifiers_of_noQuote {text : List Char} (h : NoQuote text) :
    form.specifiers text = [] := by
  induction text with
  | nil => rw [specifiers]
  | cons c text ih =>
      rw [specifiers_of_none (match?_of_noQuote h)]
      exact ih fun x hx => h x (List.mem_cons_of_mem c hx)

/-! ## Names that are quiet -/

/-- **`Sealed name`** — the last character of a name is neither a blank nor an opening parenthesis,
so that no statement can begin within the name and reach over its end. -/
def Sealed (name : List Char) : Prop :=
  ∃ before c, name = before ++ [c] ∧ isBlank c = false ∧ c ≠ '('

theorem all_isBlank_concat (gap : List Char) {c : Char} (hc : isBlank c = false) :
    (gap ++ [c]).all isBlank = false := by
  rw [List.all_append, List.all_cons, hc, Bool.false_and, Bool.and_false]

/-- A gap fits no form if its last character is no blank. -/
theorem gapFits_concat {gap : List Char} {c : Char} (hc : isBlank c = false) :
    form.gapFits (gap ++ [c]) = false := by
  have hall := all_isBlank_concat gap hc
  cases form with
  | clause =>
      show gapIsClause (gap ++ [c]) = false
      unfold gapIsClause
      have hspan : (gap ++ [c]).reverse.span isBlank = ([], (gap ++ [c]).reverse) := by
        rw [List.span_eq_takeWhile_dropWhile, List.reverse_concat,
          List.takeWhile_cons_of_neg (by rw [hc]; simp),
          List.dropWhile_cons_of_neg (by rw [hc]; simp)]
      rw [hspan]
  | bare =>
      show (!(gap ++ [c]).isEmpty && (gap ++ [c]).all isBlank) = false
      rw [hall, Bool.and_false]
  | require => exact hall
  | dynamic => exact hall

theorem leads_concat {before : List Char} {c : Char} (hc : isBlank c = false) (hparen : c ≠ '(') :
    leads form (before ++ [c]) = false := by
  unfold leads
  by_cases hopen : form.opening.isPrefixOf (before ++ [c]) = true
  · obtain ⟨gap, hgap⟩ := List.isPrefixOf_iff_prefix.mp hopen
    rw [hopen, ← hgap, List.drop_left, Bool.true_and]
    rcases List.eq_nil_or_concat gap with rfl | ⟨gap, d, rfl⟩
    · -- nothing follows the opening: a call form would end in its parenthesis
      rw [List.append_nil] at hgap
      have hlast := congrArg List.getLast? hgap
      rw [List.getLast?_concat] at hlast
      cases form with
      | clause => rfl
      | bare => rfl
      | require => exact absurd (Option.some.inj hlast).symm hparen
      | dynamic => exact absurd (Option.some.inj hlast).symm hparen
    · have hlast := congrArg List.getLast? hgap
      rw [List.concat_eq_append, ← List.append_assoc, List.getLast?_concat,
        List.getLast?_concat] at hlast
      rw [List.concat_eq_append, Option.some.inj hlast]
      exact gapFits_concat hc
  · rw [Bool.not_eq_true] at hopen
    rw [hopen, Bool.false_and]

theorem quiet_of_sealed {name : List Char} (h : Sealed name) : quiet form name = true := by
  obtain ⟨before, c, rfl, hc, hparen⟩ := h
  induction before with
  | nil =>
      show (!leads form ([] ++ [c]) && true) = true
      rw [leads_concat hc hparen]
      rfl
  | cons b before ih =>
      rw [List.cons_append, quiet, ← List.cons_append, leads_concat hc hparen, ih]
      rfl

end QuotedForm

/-! ## Import lines -/

open QuotedForm

/-- A line that imports a module for its side effects. -/
def quotedLine (name : List Char) : List Char :=
  ['i', 'm', 'p', 'o', 'r', 't', ' '] ++ '"' :: (name ++ ['"'])

/-- The text of lines that each import a module. -/
def quotedLines (names : List (List Char)) : List Char :=
  names.flatMap fun name => quotedLine name ++ ['\n']

theorem quotedLines_cons (name : List Char) (rest : List (List Char)) :
    quotedLines (name :: rest) =
      ['i', 'm', 'p', 'o', 'r', 't', ' '] ++ '"' :: (name ++ '"' :: '\n' :: quotedLines rest) := by
  unfold quotedLines quotedLine
  simp

/-- What can stand before an import line: nothing, or the end of the line before. -/
def IsLineStart (start : List Char) : Prop :=
  start = [] ∨ start = ['\n']

theorem noQuote_start {start : List Char} (h : IsLineStart start) : NoQuote start := by
  rcases h with rfl | rfl
  · exact forall_mem_of_all rfl
  · exact forall_mem_of_all rfl

theorem noQuote_import {start : List Char} (h : IsLineStart start) :
    NoQuote (start ++ ['i', 'm', 'p', 'o', 'r', 't', ' ']) := by
  rcases h with rfl | rfl
  · exact forall_mem_of_all rfl
  · exact forall_mem_of_all rfl

/-- To the three forms that want more than a blank before the quote, import lines are quiet. -/
theorem specifiers_quotedLines_of_quiet {form : QuotedForm}
    (hform : ∀ start, IsLineStart start →
      quiet form (start ++ ['i', 'm', 'p', 'o', 'r', 't', ' ']) = true)
    {names : List (List Char)} (hnames : ∀ name ∈ names, NoQuote name ∧ Sealed name)
    {start : List Char} (hstart : IsLineStart start) :
    form.specifiers (start ++ quotedLines names) = [] := by
  induction names generalizing start with
  | nil =>
      apply specifiers_of_noQuote
      show NoQuote (start ++ [])
      rw [List.append_nil]
      exact noQuote_start hstart
  | cons name rest ih =>
      obtain ⟨hname, hsealed⟩ := hnames name List.mem_cons_self
      rw [quotedLines_cons, ← List.append_assoc,
        specifiers_quiet (noQuote_import hstart) rfl (hform start hstart),
        specifiers_quiet hname rfl (quiet_of_sealed hsealed)]
      exact ih (fun n hn => hnames n (List.mem_cons_of_mem name hn)) (Or.inr rfl)

/-- Bare imports name exactly what stands between their quotes. -/
theorem specifiers_bare_quotedLines {names : List (List Char)}
    (hnames : ∀ name ∈ names, NoQuote name ∧ name ≠ []) {start : List Char}
    (hstart : IsLineStart start) : bare.specifiers (start ++ quotedLines names) = names := by
  induction names generalizing start with
  | nil =>
      apply specifiers_of_noQuote
      show NoQuote (start ++ [])
      rw [List.append_nil]
      exact noQuote_start hstart
  | cons name rest ih =>
      obtain ⟨hname, hne⟩ := hnames name List.mem_cons_self
      have hline : bare.specifiers (quotedLines (name :: rest)) = name :: rest := by
        have htail := ih (fun n hn => hnames n (List.mem_cons_of_mem name hn)) (Or.inr rfl)
        rw [quotedLines_cons]
        refine (specifiers_leads (noQuote_import (Or.inl rfl)) rfl hname rfl hne rfl rfl).trans ?_
        exact congrArg (name :: ·) htail
      rcases hstart with rfl | rfl
      · exact hline
      · -- the end of the line before begins no statement
        rw [List.singleton_append, specifiers_of_none, hline]
        rw [quotedLines_cons]
        rfl

/-- **Import lines yield exactly the names between their quotes.** -/
theorem quotedSpecifiers_quotedLines {names : List (List Char)}
    (hnames : ∀ name ∈ names, NoQuote name ∧ Sealed name) :
    quotedSpecifiers (quotedLines names) = names := by
  have hne : ∀ name ∈ names, NoQuote name ∧ name ≠ [] := by
    intro name hname
    obtain ⟨hquote, before, c, rfl, -⟩ := hnames name hname
    exact ⟨hquote, by simp⟩
  have hbare := specifiers_bare_quotedLines hne (Or.inl rfl)
  have hquiet : ∀ form : QuotedForm, (∀ start, IsLineStart start →
      quiet form (start ++ ['i', 'm', 'p', 'o', 'r', 't', ' ']) = true) →
      form.specifiers (quotedLines names) = [] := by
    intro form hform
    exact specifiers_quotedLines_of_quiet hform hnames (Or.inl rfl)
  have hclause := hquiet clause (by rintro start (rfl | rfl) <;> decide)
  have hrequire := hquiet require (by rintro start (rfl | rfl) <;> decide)
  have hdynamic := hquiet dynamic (by rintro start (rfl | rfl) <;> decide)
  rw [List.nil_append] at hbare
  unfold quotedSpecifiers QuotedForm.all
  simp only [List.flatMap_cons, List.flatMap_nil, hclause, hbare, hrequire, hdynamic]
  simp

end SourceAtlas.Extract
