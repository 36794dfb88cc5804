/-
# SourceAtlas.Proofs.Extract.Segments — statements read off the segments between quotes.

The quotes of a text cut it into segments.  A statement begins in one segment, names the next one
and, if it is a call, closes in the one after that, so all statements of a form can be read off by
looking at three segments at a time (`QuotedForm.scan`).  What a segment must end in is said by how
it is put together (`QuotedForm.Ends`), not by where a search would stop.

Extraction goes from character to character and finds exactly what the scan finds
(`specifiers_eq_scan`).  That rests on three facts: a segment ends right if and only if some tail of
it leads (`ends_iff`); a call closes in a segment if and only if it closes in the text from there on
(`closes_iff`); and the characters that a call uses up behind its specifier begin no statement
(`specifiers_of_afterQuote?`).
-/
import Mathlib.Data.List.Infix
import SourceAtlas.Extract
import SourceAtlas.Proofs.Extract.Quoted

namespace SourceAtlas.Extract

open Text

namespace QuotedForm

variable {form : QuotedForm}

/-! ## The scan -/

/-- **`Ends form segment`** — the segment ends in what stands before the first quote of a statement
of the form.  In a clause the white space behind `import` comes before the word `from`, and anything
may stand between the two. -/
def Ends : QuotedForm → List Char → Prop
  | clause, segment => ∃ before blank between blanks, isBlank blank = true ∧ Blank blanks ∧
      blanks ≠ [] ∧ segment = before ++ ['i', 'm', 'p', 'o', 'r', 't'] ++ (blank :: between)
        ++ ['f', 'r', 'o', 'm'] ++ blanks
  | bare, segment => ∃ before blanks, Blank blanks ∧ blanks ≠ [] ∧
      segment = before ++ ['i', 'm', 'p', 'o', 'r', 't'] ++ blanks
  | require, segment => ∃ before blanks, Blank blanks ∧
      segment = before ++ ['r', 'e', 'q', 'u', 'i', 'r', 'e', '('] ++ blanks
  | dynamic, segment => ∃ before blanks, Blank blanks ∧
      segment = before ++ ['i', 'm', 'p', 'o', 'r', 't', '('] ++ blanks

/-- The segment begins with a closing parenthesis, which white space may precede. -/
def ClosesCall (segment : List Char) : Prop :=
  ∃ blanks rest, Blank blanks ∧ segment = blanks ++ ')' :: rest

/-- **`Closes form segment`** — the segment begins with what stands behind the second quote of a
statement of the form. -/
def Closes : QuotedForm → List Char → Prop
  | clause, _ => True
  | bare, _ => True
  | require, segment => ClosesCall segment
  | dynamic, segment => ClosesCall segment

/-- **`Hit form before specifier after`** — three segments in a row are a statement of the form. -/
def Hit (form : QuotedForm) (before specifier after : List Char) : Prop :=
  form.Ends before ∧ specifier ≠ [] ∧ form.Closes after

/-! ## How a segment ends -/

theorem gapIsClause_iff {gap : List Char} :
    gapIsClause gap = true ↔ ∃ blank between blanks, isBlank blank = true ∧ Blank blanks ∧
      blanks ≠ [] ∧ gap = (blank :: between) ++ ['f', 'r', 'o', 'm'] ++ blanks := by
  unfold gapIsClause
  constructor
  · intro h
    have hspan := List.takeWhile_append_dropWhile (p := isBlank) (l := gap.reverse)
    have hblank : ∀ c ∈ gap.reverse.takeWhile isBlank, isBlank c = true :=
      fun c hc => List.mem_takeWhile_imp hc
    rw [List.span_eq_takeWhile_dropWhile] at h
    split at h
    · cases h
    · rename_i b blanks before heq
      obtain ⟨htake, hdrop⟩ := Prod.mk.inj heq
      rw [htake, hdrop] at hspan
      rw [htake] at hblank
      have hgap : gap = before.reverse ++ ['f', 'r', 'o', 'm'] ++ (b :: blanks).reverse := by
        rw [← List.reverse_reverse gap, ← hspan]
        simp
      unfold startsBlank at h
      cases hbefore : before.reverse with
      | nil =>
          rw [hbefore] at h
          cases h
      | cons blank between =>
          rw [hbefore] at h hgap
          exact ⟨blank, between, (b :: blanks).reverse, h,
            fun c hc => hblank c (List.mem_reverse.mp hc), by simp, hgap⟩
    · cases h
  · rintro ⟨blank, between, blanks, hblank, hblanks, hne, rfl⟩
    have hrev : ((blank :: between) ++ ['f', 'r', 'o', 'm'] ++ blanks).reverse =
        blanks.reverse ++ 'm' :: 'o' :: 'r' :: 'f' :: (blank :: between).reverse := by
      simp
    have hall : ∀ c ∈ blanks.reverse, isBlank c = true :=
      fun c hc => hblanks c (List.mem_reverse.mp hc)
    have hm : ¬ isBlank 'm' = true := by decide
    rw [hrev, List.span_eq_takeWhile_dropWhile, List.takeWhile_append_of_pos hall,
      List.dropWhile_append_of_pos hall, List.takeWhile_cons_of_neg hm,
      List.dropWhile_cons_of_neg hm, List.append_nil]
    cases hcons : blanks.reverse with
    | nil => exact absurd (List.reverse_eq_nil_iff.mp hcons) hne
    | cons b rest =>
        show startsBlank (blank :: between).reverse.reverse = true
        rw [List.reverse_reverse]
        exact hblank

theorem all_isBlank_iff {text : List Char} : text.all isBlank = true ↔ Blank text :=
  List.all_eq_true

theorem leads_iff {run : List Char} :
    leads form run = true ↔ ∃ gap, form.gapFits gap = true ∧ run = form.opening ++ gap := by
  unfold leads
  rw [Bool.and_eq_true, List.isPrefixOf_iff_prefix]
  constructor
  · rintro ⟨⟨gap, rfl⟩, hgap⟩
    rw [List.drop_left] at hgap
    exact ⟨gap, hgap, rfl⟩
  · rintro ⟨gap, hgap, rfl⟩
    rw [List.drop_left]
    exact ⟨⟨gap, rfl⟩, hgap⟩

/-- **A segment ends right exactly if some tail of it leads.** -/
theorem ends_iff {segment : List Char} :
    form.Ends segment ↔ ∃ before lead, segment = before ++ lead ∧ leads form lead = true := by
  simp only [leads_iff]
  cases form with
  | clause =>
      constructor
      · rintro ⟨before, blank, between, blanks, hblank, hblanks, hne, rfl⟩
        refine ⟨before, _, ?_, _, gapIsClause_iff.mpr ⟨blank, between, blanks, hblank, hblanks,
          hne, rfl⟩, rfl⟩
        simp [opening]
      · rintro ⟨before, _, rfl, gap, hgap, rfl⟩
        obtain ⟨blank, between, blanks, hblank, hblanks, hne, rfl⟩ := gapIsClause_iff.mp hgap
        refine ⟨before, blank, between, blanks, hblank, hblanks, hne, ?_⟩
        simp [opening]
  | bare =>
      have hfits : ∀ gap, gapFits bare gap = true ↔ gap ≠ [] ∧ Blank gap := by
        intro gap
        simp [gapFits, Blank]
      simp only [hfits]
      constructor
      · rintro ⟨before, blanks, hblanks, hne, rfl⟩
        exact ⟨before, _, List.append_assoc _ _ _, blanks, ⟨hne, hblanks⟩, rfl⟩
      · rintro ⟨before, _, rfl, blanks, ⟨hne, hblanks⟩, rfl⟩
        exact ⟨before, blanks, hblanks, hne, (List.append_assoc _ _ _).symm⟩
  | require =>
      constructor
      · rintro ⟨before, blanks, hblanks, rfl⟩
        exact ⟨before, _, List.append_assoc _ _ _, blanks, all_isBlank_iff.mpr hblanks, rfl⟩
      · rintro ⟨before, _, rfl, blanks, hblanks, rfl⟩
        exact ⟨before, blanks, all_isBlank_iff.mp hblanks, (List.append_assoc _ _ _).symm⟩
  | dynamic =>
      constructor
      · rintro ⟨before, blanks, hblanks, rfl⟩
        exact ⟨before, _, List.append_assoc _ _ _, blanks, all_isBlank_iff.mpr hblanks, rfl⟩
      · rintro ⟨before, _, rfl, blanks, hblanks, rfl⟩
        exact ⟨before, blanks, all_isBlank_iff.mp hblanks, (List.append_assoc _ _ _).symm⟩

/-- A run that is not quiet has a first place from which it leads. -/
theorem exists_first_lead {run : List Char} (h : quiet form run = false) :
    ∃ before lead, run = before ++ lead ∧ leads form lead = true ∧
      ∀ tail, tail <:+ before → tail ≠ [] → leads form (tail ++ lead) = false := by
  induction run with
  | nil => cases h
  | cons c rest ih =>
      by_cases hlead : leads form (c :: rest) = true
      · refine ⟨[], c :: rest, rfl, hlead, fun tail htail hne => ?_⟩
        exact absurd (List.suffix_nil.mp htail) hne
      · rw [Bool.not_eq_true] at hlead
        rw [quiet, hlead, Bool.not_false, Bool.true_and] at h
        obtain ⟨before, lead, rfl, hleads, hfirst⟩ := ih h
        refine ⟨c :: before, lead, rfl, hleads, fun tail htail hne => ?_⟩
        rcases List.suffix_cons_iff.mp htail with rfl | htail
        · exact hlead
        · exact hfirst tail htail hne

theorem not_leads_of_quiet {run tail : List Char} (h : quiet form run = true)
    (htail : tail <:+ run) : leads form tail = false := by
  induction run with
  | nil =>
      rw [List.suffix_nil.mp htail]
      exact leads_nil form
  | cons c rest ih =>
      rw [quiet, Bool.and_eq_true, Bool.not_eq_true'] at h
      rcases List.suffix_cons_iff.mp htail with rfl | htail
      · exact h.1
      · exact ih h.2 htail

theorem ends_iff_not_quiet {run : List Char} : form.Ends run ↔ quiet form run = false := by
  constructor
  · intro h
    obtain ⟨before, lead, rfl, hlead⟩ := ends_iff.mp h
    rw [← Bool.not_eq_true]
    intro hquiet
    rw [not_leads_of_quiet hquiet (List.suffix_append before lead)] at hlead
    cases hlead
  · intro h
    obtain ⟨before, lead, heq, hlead, -⟩ := exists_first_lead h
    exact ends_iff.mpr ⟨before, lead, heq, hlead⟩

instance (form : QuotedForm) (segment : List Char) : Decidable (form.Ends segment) :=
  decidable_of_iff (quiet form segment = false) ends_iff_not_quiet.symm

/-! ## How a segment begins -/

theorem isBlank_of_isQuote {q : Char} (h : isQuote q = true) : isBlank q = false := by
  simp only [isQuote, Bool.or_eq_true, beq_iff_eq] at h
  rcases h with (h | h) | h <;> simp [isBlank, h]

/-- A quote closes no call, so a call closes before the next quote or not at all. -/
theorem closesCall_iff {segment rest : List Char} (hrest : ∀ q ∈ rest.head?, isQuote q = true) :
    ClosesCall segment ↔ ∃ more, afterQuote?.afterParenthesis? (segment ++ rest) = some more := by
  unfold afterQuote?.afterParenthesis?
  constructor
  · rintro ⟨blanks, after, hblanks, rfl⟩
    have hdrop : (blanks ++ ')' :: after ++ rest).dropWhile isBlank = ')' :: (after ++ rest) := by
      rw [List.append_assoc, List.dropWhile_append_of_pos hblanks]
      exact List.dropWhile_cons_of_neg (by decide)
    rw [hdrop]
    exact ⟨after ++ rest, rfl⟩
  · rintro ⟨more, hmore⟩
    split at hmore
    · rename_i tail hdrop
      have hspan := List.takeWhile_append_dropWhile (p := isBlank) (l := segment)
      have hblank : Blank (segment.takeWhile isBlank) := fun c hc => List.mem_takeWhile_imp hc
      rw [List.dropWhile_append] at hdrop
      cases hsegment : segment.dropWhile isBlank with
      | nil =>
          -- then the parenthesis would be the quote that ends the segment
          rw [hsegment, List.isEmpty_nil, if_pos rfl] at hdrop
          cases rest with
          | nil => cases hdrop
          | cons q rest =>
              have hq : isQuote q = true := hrest q rfl
              rw [List.dropWhile_cons_of_neg (by simp [isBlank_of_isQuote hq])] at hdrop
              cases hdrop
              exact absurd hq (by decide)
      | cons c after =>
          rw [hsegment, List.isEmpty_cons, if_neg (by simp)] at hdrop
          cases hdrop
          exact ⟨segment.takeWhile isBlank, after, hblank, by rw [← hsegment, hspan]⟩
    · cases hmore

theorem closes_iff {segment rest : List Char} (hrest : ∀ q ∈ rest.head?, isQuote q = true) :
    form.Closes segment ↔ ∃ more, form.afterQuote? (segment ++ rest) = some more := by
  cases form with
  | clause => exact ⟨fun _ => ⟨_, rfl⟩, fun _ => trivial⟩
  | bare => exact ⟨fun _ => ⟨_, rfl⟩, fun _ => trivial⟩
  | require => exact closesCall_iff hrest
  | dynamic => exact closesCall_iff hrest

instance (form : QuotedForm) (segment : List Char) : Decidable (form.Closes segment) :=
  decidable_of_iff ((form.afterQuote? (segment ++ [])).isSome = true) <| by
    rw [Option.isSome_iff_exists]
    exact (closes_iff (by simp)).symm

instance (form : QuotedForm) (before specifier after : List Char) :
    Decidable (form.Hit before specifier after) :=
  inferInstanceAs (Decidable (_ ∧ _ ∧ _))

/-- **`scan form segments`** — the specifiers of the form, found from segment to segment.  Behind a
statement the scan goes on with the segment after its specifier, otherwise with the next one. -/
def scan (form : QuotedForm) : List (List Char) → List (List Char)
  | before :: specifier :: after :: rest =>
    if form.Hit before specifier after then specifier :: scan form (after :: rest)
    else scan form (specifier :: after :: rest)
  | _ => []

/-! ## Going past what begins no statement -/

/-- Extraction goes past characters from which no statement begins. -/
theorem specifiers_append_of_none {skipped rest : List Char}
    (h : ∀ tail, tail <:+ skipped → tail ≠ [] → form.match? (tail ++ rest) = none) :
    form.specifiers (skipped ++ rest) = form.specifiers rest := by
  induction skipped with
  | nil => rfl
  | cons c skipped ih =>
      have hnone := h (c :: skipped) List.suffix_rfl (by simp)
      rw [List.cons_append] at hnone ⊢
      rw [specifiers_of_none hnone]
      exact ih fun tail htail => h tail (htail.trans (List.suffix_cons c skipped))

theorem match?_of_head_ne {c : Char} {text : List Char} (h : form.opening.head? ≠ some c) :
    form.match? (c :: text) = none := by
  unfold match?
  rw [if_neg]
  rw [List.isPrefixOf_iff_prefix]
  intro hprefix
  cases hopening : form.opening with
  | nil => cases form <;> cases hopening
  | cons a opening =>
      rw [hopening] at h hprefix
      obtain ⟨rfl, -⟩ := List.cons_prefix_cons.mp hprefix
      exact h rfl

/-- What a statement uses up behind its specifier begins no statement of the form. -/
theorem specifiers_of_afterQuote? {rest more : List Char} (h : form.afterQuote? rest = some more) :
    form.specifiers rest = form.specifiers more := by
  have paren : afterQuote?.afterParenthesis? rest = some more →
      (∀ c, isBlank c = true ∨ c = ')' → form.opening.head? ≠ some c) →
      form.specifiers rest = form.specifiers more := by
    intro hparen hhead
    unfold afterQuote?.afterParenthesis? at hparen
    split at hparen
    · rename_i tail hdrop
      cases hparen
      have hspan := List.takeWhile_append_dropWhile (p := isBlank) (l := rest)
      rw [hdrop, List.append_cons] at hspan
      rw [← hspan]
      apply specifiers_append_of_none
      intro used hused hne
      cases used with
      | nil => exact absurd rfl hne
      | cons c used =>
          have hmem := hused.mem (List.mem_cons_self : c ∈ c :: used)
          apply match?_of_head_ne
          apply hhead
          rcases List.mem_append.mp hmem with hc | hc
          · exact Or.inl (List.mem_takeWhile_imp hc)
          · exact Or.inr (List.mem_singleton.mp hc)
    · cases hparen
  cases form with
  | clause => cases h; rfl
  | bare => cases h; rfl
  | require =>
      apply paren h
      rintro c (hc | rfl) heq
      · cases heq
        exact absurd hc (by decide)
      · cases heq
  | dynamic =>
      apply paren h
      rintro c (hc | rfl) heq
      · cases heq
        exact absurd hc (by decide)
      · cases heq

/-- Extraction goes past a run and the quote behind it if no tail of the run begins a statement. -/
theorem specifiers_past_quote {run rest : List Char} {q : Char}
    (h : ∀ tail, tail <:+ run → form.match? (tail ++ q :: rest) = none) :
    form.specifiers (run ++ q :: rest) = form.specifiers rest := by
  rw [specifiers_append_of_none fun tail htail _ => h tail htail]
  exact specifiers_of_none (h [] (List.nil_suffix))

/-- Without a second quote there is no statement. -/
theorem match?_of_unclosed {run rest : List Char} {q : Char} (hrun : NoQuote run)
    (hq : isQuote q = true) (hrest : NoQuote rest) : form.match? (run ++ q :: rest) = none := by
  have hnone : rest.dropWhile (!isQuote ·) = [] := by
    rw [List.dropWhile_eq_nil_iff]
    intro c hc
    rw [hrest c hc]
    rfl
  by_cases hopen : form.opening.isPrefixOf run = true
  · unfold match?
    rw [isPrefixOf_run (noQuote_opening form) hq, if_pos hopen]
    simp only [drop_run hopen, dropWhile_run (noQuote_drop hrun _) hq, hnone]
  · unfold match?
    rw [isPrefixOf_run (noQuote_opening form) hq, if_neg hopen]

/-- A statement names something. -/
theorem match?_of_empty {run rest : List Char} {q q' : Char} (hrun : NoQuote run)
    (hq : isQuote q = true) (hq' : isQuote q' = true) :
    form.match? (run ++ q :: q' :: rest) = none := by
  have htake : (q' :: rest).takeWhile (!isQuote ·) = [] :=
    List.takeWhile_cons_of_neg (by rw [hq']; simp)
  have hquote : (q' :: rest).dropWhile (!isQuote ·) = q' :: rest :=
    List.dropWhile_cons_of_neg (by rw [hq']; simp)
  by_cases hopen : form.opening.isPrefixOf run = true
  · unfold match?
    rw [isPrefixOf_run (noQuote_opening form) hq, if_pos hopen]
    simp only [drop_run hopen, dropWhile_run (noQuote_drop hrun _) hq, htake, hquote]
    simp
  · unfold match?
    rw [isPrefixOf_run (noQuote_opening form) hq, if_neg hopen]

theorem NoQuote.of_suffix {run tail : List Char} (hrun : NoQuote run) (h : tail <:+ run) :
    NoQuote tail :=
  fun c hc => hrun c (h.mem hc)

/-! ## Extraction and the scan -/

section Segments

variable {run specifier after rest : List Char} {q q' : Char}

/-- Three segments that are a statement: it is found, and extraction goes on behind its
specifier. -/
theorem specifiers_of_hit (hrun : NoQuote run) (hq : isQuote q = true)
    (hspecifier : NoQuote specifier) (hq' : isQuote q' = true)
    (hrest : ∀ c ∈ rest.head?, isQuote c = true) (h : form.Hit run specifier after) :
    form.specifiers (run ++ q :: (specifier ++ q' :: (after ++ rest))) =
      specifier :: form.specifiers (after ++ rest) := by
  obtain ⟨hends, hne, hcloses⟩ := h
  obtain ⟨more, hmore⟩ := (closes_iff hrest).mp hcloses
  obtain ⟨before, lead, rfl, hlead, hfirst⟩ := exists_first_lead (ends_iff_not_quiet.mp hends)
  have hquiet : ∀ tail, tail <:+ before → tail ≠ [] →
      form.match? (tail ++ (lead ++ q :: (specifier ++ q' :: (after ++ rest)))) = none := by
    intro tail htail hne
    have hsuffix : tail ++ lead <:+ before ++ lead := by
      obtain ⟨front, rfl⟩ := htail
      exact ⟨front, (List.append_assoc _ _ _).symm⟩
    rw [← List.append_assoc]
    exact match?_of_not_leads (hrun.of_suffix hsuffix) hq (hfirst tail htail hne) _
  rw [List.append_assoc, specifiers_append_of_none hquiet,
    specifiers_leads (hrun.of_suffix (List.suffix_append _ _)) hq hspecifier hq' hne hlead hmore,
    specifiers_of_afterQuote? hmore]

/-- Three segments that are no statement: extraction goes past the first of them. -/
theorem specifiers_of_not_hit (hrun : NoQuote run) (hq : isQuote q = true)
    (hspecifier : NoQuote specifier) (hq' : isQuote q' = true)
    (hrest : ∀ c ∈ rest.head?, isQuote c = true) (h : ¬ form.Hit run specifier after) :
    form.specifiers (run ++ q :: (specifier ++ q' :: (after ++ rest))) =
      form.specifiers (specifier ++ q' :: (after ++ rest)) := by
  apply specifiers_past_quote
  intro tail htail
  have htail' := hrun.of_suffix htail
  by_cases hlead : leads form tail = true
  · by_cases hne : specifier = []
    · rw [hne]
      exact match?_of_empty htail' hq hq'
    · rw [match?_of_leads htail' hq hspecifier hq' hne hlead]
      cases hmore : form.afterQuote? (after ++ rest) with
      | none => rfl
      | some more =>
          obtain ⟨before, rfl⟩ := htail
          exact absurd ⟨ends_iff.mpr ⟨before, tail, rfl, hlead⟩, hne,
            (closes_iff hrest).mpr ⟨more, hmore⟩⟩ h
  · rw [Bool.not_eq_true] at hlead
    exact match?_of_not_leads htail' hq hlead _

end Segments

/-- **Extraction finds exactly what the scan over the segments finds.** -/
theorem specifiers_eq_scan (form : QuotedForm) (text : List Char) :
    form.specifiers text = form.scan (pieces isQuote text) := by
  -- the scan goes on one or two segments further, so the induction is on the length of the text
  induction hlength : text.length using Nat.strong_induction_on generalizing text with
  | _ length ih =>
    rcases pieces_cases isQuote text with
      ⟨hrun, hpieces⟩ | ⟨run, q, quoted, hrun, hq, rfl, hpieces⟩
    · rw [hpieces]
      exact specifiers_of_noQuote hrun
    rw [hpieces]
    rcases pieces_cases isQuote quoted with
      ⟨hspecifier, hquoted⟩ | ⟨specifier, q', behind, hspecifier, hq', rfl, hquoted⟩
    · rw [hquoted, specifiers_past_quote fun tail htail =>
        match?_of_unclosed (NoQuote.of_suffix hrun htail) hq hspecifier]
      exact specifiers_of_noQuote hspecifier
    obtain ⟨after, rest, more, rfl, hrest, hbehind⟩ := exists_first_piece isQuote behind
    have hlength' : (after ++ rest).length < (specifier ++ q' :: (after ++ rest)).length := by
      simp
      omega
    have hlength'' : (specifier ++ q' :: (after ++ rest)).length < length := by
      rw [← hlength]
      simp
      omega
    have hshort := ih _ (hlength'.trans hlength'') (after ++ rest) rfl
    have hlong := ih _ hlength'' (specifier ++ q' :: (after ++ rest)) rfl
    rw [hbehind] at hshort
    rw [hquoted, hbehind] at hlong ⊢
    rw [scan]
    by_cases h : form.Hit run specifier after
    · rw [if_pos h, specifiers_of_hit hrun hq hspecifier hq' hrest h, hshort]
    · rw [if_neg h, specifiers_of_not_hit hrun hq hspecifier hq' hrest h, hlong]

/-- What the scan finds is a segment with another on either side. -/
theorem exists_of_mem_scan {segments : List (List Char)} {specifier : List Char}
    (h : specifier ∈ form.scan segments) :
    specifier ≠ [] ∧ ∃ before after, segments = before ++ specifier :: after ∧ before ≠ [] ∧
      after ≠ [] := by
  induction segments using scan.induct form with
  | case1 before found after rest hit ih =>
      rw [scan, if_pos hit] at h
      rcases List.mem_cons.mp h with rfl | h
      · exact ⟨hit.2.1, [before], after :: rest, rfl, by simp, by simp⟩
      · obtain ⟨hne, front, back, heq, -, hback⟩ := ih h
        exact ⟨hne, before :: found :: front, back, by rw [heq]; rfl, by simp, hback⟩
  | case2 before found after rest hmiss ih =>
      rw [scan, if_neg hmiss] at h
      obtain ⟨hne, front, back, heq, -, hback⟩ := ih h
      exact ⟨hne, before :: front, back, by rw [heq]; rfl, by simp, hback⟩
  | case3 segments hshort =>
      rw [scan.eq_2 form segments hshort] at h
      exact absurd h List.not_mem_nil

theorem mem_all (form : QuotedForm) : form ∈ all := by
  cases form <;> decide

end QuotedForm

open QuotedForm

theorem mem_quotedSpecifiers {text specifier : List Char} :
    specifier ∈ quotedSpecifiers text ↔
      ∃ form : QuotedForm, specifier ∈ form.scan (pieces isQuote text) := by
  unfold quotedSpecifiers
  simp only [List.mem_flatMap, specifiers_eq_scan, mem_all, true_and]

/-- **The specifiers of ECMAScript text are those that the scans of the four forms find**, each for
itself; so every one is some text between two quotes and holds none. -/
theorem specifiersOf_ecmascript (text : List Char) :
    (∀ specifier, specifier ∈ specifiersOf .ecmascript text ↔
        ∃ form : QuotedForm, specifier.toList ∈ form.scan (pieces isQuote text)) ∧
      ∀ specifier ∈ specifiersOf .ecmascript text,
        specifier.toList ≠ [] ∧ NoQuote specifier.toList ∧
          ∃ before q q' after, isQuote q = true ∧ isQuote q' = true ∧
            text = before ++ q :: (specifier.toList ++ q' :: after) := by
  have hmem : ∀ specifier, specifier ∈ specifiersOf .ecmascript text ↔
      ∃ form : QuotedForm, specifier.toList ∈ form.scan (pieces isQuote text) := by
    intro specifier
    rw [← mem_quotedSpecifiers]
    exact mem_ofList_map_ofList
  refine ⟨hmem, fun specifier hspecifier => ?_⟩
  obtain ⟨form, hscan⟩ := (hmem specifier).mp hspecifier
  obtain ⟨hne, before, after, hpieces, hbefore, hafter⟩ := exists_of_mem_scan hscan
  exact ⟨hne, exists_cuts_of_pieces hpieces hbefore hafter⟩

/-- A specifier that looks like the beginning of a statement is taken and begins none. -/
example : QuotedForm.bare.scan (pieces isQuote "''import \"import 'z' \"".toList) =
    [['i', 'm', 'p', 'o', 'r', 't', ' ']] := by decide

/-- A clause and a call whose quotes do not match, the call closing in the last segment. -/
def mixedQuotes : List Char :=
  "import a from \"x'; require(`y\" )".toList

theorem specifiersOf_ecmascript_mixedQuotes :
    "y" ∈ specifiersOf .ecmascript mixedQuotes ∧ "y".toList ≠ [] ∧ NoQuote "y".toList ∧
      ∃ before q q' after, isQuote q = true ∧ isQuote q' = true ∧
        mixedQuotes = before ++ q :: ("y".toList ++ q' :: after) := by
  have hmem : "y" ∈ specifiersOf .ecmascript mixedQuotes :=
    ((specifiersOf_ecmascript mixedQuotes).1 "y").mpr ⟨.require, by decide⟩
  exact ⟨hmem, (specifiersOf_ecmascript mixedQuotes).2 "y" hmem⟩

end SourceAtlas.Extract
