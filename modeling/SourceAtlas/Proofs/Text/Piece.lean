/-
# SourceAtlas.Proofs.Text.Piece — cutting and trimming, tied to the library.

`pieces` is the library's `List.splitOnP` with the recursion written out, so that everything known
of that function is known of `pieces` (`pieces_eq_splitOnP`).  What is added here is where the
characters of a piece come from, and which texts a cut or a trim leaves alone.
-/
import Mathlib.Data.List.TakeWhile
import SourceAtlas.OrderedSet
import SourceAtlas.Text.Piece

namespace SourceAtlas.Text

/-! ## Characters of a given text -/

/-- A check of every character of a text.  It runs over the text and not over all characters there
are, which is what deciding the statement itself can come to. -/
theorem forall_mem_of_all {p : Char → Prop} [DecidablePred p] {text : List Char}
    (h : text.all (fun c => decide (p c)) = true) : ∀ c ∈ text, p c := by
  intro c hc
  exact of_decide_eq_true (List.all_eq_true.mp h c hc)

/-! ## Cutting -/

/-- **`pieces` is `List.splitOnP`.** -/
theorem pieces_eq_splitOnP (cut : Char → Bool) (text : List Char) :
    pieces cut text = text.splitOnP cut := by
  induction text with
  | nil => rfl
  | cons c rest ih =>
      rw [List.splitOnP_cons_eq_if_modifyHead, ← ih, pieces]
      split
      · rfl
      · cases hrest : pieces cut rest with
        | nil => exact absurd hrest (pieces_ne_nil cut rest)
        | cons piece more => rfl

/-- A text without a cut is one piece, and a cut after it begins the next. -/
theorem pieces_append_cut {cut : Char → Bool} {line : List Char} {c : Char}
    (hline : ∀ x ∈ line, cut x = false) (hc : cut c = true) (rest : List Char) :
    pieces cut (line ++ c :: rest) = line :: pieces cut rest := by
  rw [pieces_eq_splitOnP, pieces_eq_splitOnP]
  exact List.splitOnP_append_cons_of_forall_mem hline c hc rest

theorem pieces_of_no_cut {cut : Char → Bool} {line : List Char}
    (hline : ∀ x ∈ line, cut x = false) : pieces cut line = [line] := by
  rw [pieces_eq_splitOnP]
  exact List.splitOnP_eq_singleton hline

/-- A cut between two texts is all that joins their pieces. -/
theorem pieces_append {cut : Char → Bool} {c : Char} (hc : cut c = true) (text rest : List Char) :
    pieces cut (text ++ c :: rest) = pieces cut text ++ pieces cut rest := by
  simp only [pieces_eq_splitOnP]
  exact List.splitOnP_append_cons text rest hc

/-- Lines joined by a cut are the pieces of what they make. -/
theorem pieces_intercalate {c : Char} {lines : List (List Char)} (hlines : ∀ line ∈ lines, c ∉ line)
    (hne : lines ≠ []) : pieces (· == c) ([c].intercalate lines) = lines := by
  rw [pieces_eq_splitOnP]
  exact List.splitOn_intercalate c hlines hne

/-- A text is one piece, or its first piece ends at its first cut. -/
theorem pieces_cases (cut : Char → Bool) (text : List Char) :
    ((∀ x ∈ text, cut x = false) ∧ pieces cut text = [text]) ∨
      ∃ piece c rest, (∀ x ∈ piece, cut x = false) ∧ cut c = true ∧ text = piece ++ c :: rest ∧
        pieces cut text = piece :: pieces cut rest := by
  induction text with
  | nil => exact Or.inl ⟨by simp, rfl⟩
  | cons a text ih =>
      by_cases ha : cut a = true
      · refine Or.inr ⟨[], a, text, by simp, ha, rfl, ?_⟩
        exact pieces_append_cut (List.forall_mem_nil _) ha text
      · rw [Bool.not_eq_true] at ha
        rcases ih with ⟨hall, -⟩ | ⟨piece, c, rest, hpiece, hc, rfl, -⟩
        · have hcons : ∀ x ∈ a :: text, cut x = false := List.forall_mem_cons.mpr ⟨ha, hall⟩
          exact Or.inl ⟨hcons, pieces_of_no_cut hcons⟩
        · have hcons : ∀ x ∈ a :: piece, cut x = false := List.forall_mem_cons.mpr ⟨ha, hpiece⟩
          exact Or.inr ⟨a :: piece, c, rest, hcons, hc, rfl, pieces_append_cut hcons hc rest⟩

/-- A text that does not begin with a cut begins with a piece that is not empty. -/
theorem head?_pieces_ne_nil {cut : Char → Bool} {c : Char} (hc : cut c = false) (rest : List Char) :
    (pieces cut (c :: rest)).head? ≠ some [] := by
  rcases pieces_cases cut (c :: rest) with ⟨-, hpieces⟩ | ⟨piece, d, rest', -, hd, heq, hpieces⟩
  · rw [hpieces]
    simp
  · rw [hpieces]
    cases piece with
    | nil =>
        cases heq
        rw [hc] at hd
        cases hd
    | cons => simp

/-- A text begins with its first piece, and goes on with a cut if it goes on. -/
theorem exists_first_piece (cut : Char → Bool) (text : List Char) :
    ∃ first rest more, text = first ++ rest ∧ (∀ c ∈ rest.head?, cut c = true) ∧
      pieces cut text = first :: more := by
  rcases pieces_cases cut text with ⟨-, h⟩ | ⟨piece, c, rest, -, hc, rfl, h⟩
  · exact ⟨text, [], [], (List.append_nil text).symm, by simp, h⟩
  · exact ⟨piece, c :: rest, _, rfl, by simpa using hc, h⟩

/-- A piece that is neither the first nor the last stands between two cuts. -/
theorem exists_cuts_of_pieces {cut : Char → Bool} {text piece : List Char}
    {before after : List (List Char)} (h : pieces cut text = before ++ piece :: after)
    (hbefore : before ≠ []) (hafter : after ≠ []) :
    (∀ x ∈ piece, cut x = false) ∧ ∃ front c c' back, cut c = true ∧ cut c' = true ∧
      text = front ++ c :: (piece ++ c' :: back) := by
  induction before generalizing text with
  | nil => exact absurd rfl hbefore
  | cons first before ih =>
      rcases pieces_cases cut text with ⟨-, hone⟩ | ⟨_, c, rest, -, hc, rfl, hfirst⟩
      · rw [hone] at h
        simp at h
      · rw [hfirst, List.cons_append, List.cons.injEq] at h
        obtain ⟨rfl, hrest⟩ := h
        by_cases hlast : before = []
        · -- the piece is the first one behind the cut
          rw [hlast, List.nil_append] at hrest
          rcases pieces_cases cut rest with ⟨-, hone⟩ | ⟨_, c', back, hpiece, hc', rfl, hback⟩
          · rw [hone, List.cons.injEq] at hrest
            exact absurd hrest.2.symm hafter
          · rw [hback, List.cons.injEq] at hrest
            obtain ⟨rfl, -⟩ := hrest
            exact ⟨hpiece, _, c, c', back, hc, hc', rfl⟩
        · obtain ⟨hpiece, front, d, d', back, hd, hd', rfl⟩ := ih hrest hlast
          exact ⟨hpiece, _, d, d', back, hd, hd', (List.append_assoc _ (c :: front) _).symm⟩

/-- The characters of a piece are characters of the text, and none of them cuts. -/
theorem mem_of_mem_pieces {cut : Char → Bool} {text piece : List Char} {c : Char}
    (hpiece : piece ∈ pieces cut text) (hc : c ∈ piece) : c ∈ text ∧ cut c = false := by
  induction text generalizing piece with
  | nil =>
      rw [pieces, List.mem_singleton] at hpiece
      rw [hpiece] at hc
      exact absurd hc List.not_mem_nil
  | cons a rest ih =>
      rw [pieces] at hpiece
      split at hpiece
      · rcases List.mem_cons.mp hpiece with rfl | hpiece
        · exact absurd hc List.not_mem_nil
        · have h := ih hpiece hc
          exact ⟨List.mem_cons_of_mem a h.1, h.2⟩
      · rename_i hcut
        split at hpiece
        · rename_i hnil
          exact absurd hnil (pieces_ne_nil cut rest)
        · rename_i first more hrest
          rw [hrest] at ih
          rcases List.mem_cons.mp hpiece with rfl | hpiece
          · rcases List.mem_cons.mp hc with rfl | hc
            · exact ⟨List.mem_cons_self, by simpa using hcut⟩
            · have h := ih List.mem_cons_self hc
              exact ⟨List.mem_cons_of_mem a h.1, h.2⟩
          · have h := ih (List.mem_cons_of_mem first hpiece) hc
            exact ⟨List.mem_cons_of_mem a h.1, h.2⟩

/-- The pieces of lines that each end in a cut are the lines, and one empty piece after them. -/
theorem pieces_flatMap_lines {cut : Char → Bool} {c : Char} {lines : List (List Char)}
    (hlines : ∀ line ∈ lines, ∀ x ∈ line, cut x = false) (hc : cut c = true) :
    pieces cut (lines.flatMap (· ++ [c])) = lines ++ [[]] := by
  induction lines with
  | nil => rfl
  | cons line rest ih =>
      rw [List.flatMap_cons, List.append_assoc, List.singleton_append,
        pieces_append_cut (hlines line List.mem_cons_self) hc,
        ih fun l hl => hlines l (List.mem_cons_of_mem line hl)]
      rfl

/-- What comes behind the last cut is in the last piece: if no piece is told from the same piece
with it, neither are the pieces of the text. -/
theorem filterMap_pieces_append {α : Type} {cut : Char → Bool} {f : List Char → Option α}
    {after : List Char} (hafter : ∀ x ∈ after, cut x = false)
    (hf : ∀ piece, f (piece ++ after) = f piece) (text : List Char) :
    (pieces cut (text ++ after)).filterMap f = (pieces cut text).filterMap f := by
  induction hlength : text.length using Nat.strong_induction_on generalizing text with
  | _ length ih =>
  subst hlength
  rcases pieces_cases cut text with ⟨htext, hpieces⟩ | ⟨piece, c, rest, hpiece, hc, rfl, hpieces⟩
  · have hboth : ∀ x ∈ text ++ after, cut x = false := List.forall_mem_append.mpr ⟨htext, hafter⟩
    rw [hpieces, pieces_of_no_cut hboth, List.filterMap_cons, List.filterMap_cons, hf]
  · have hshorter : rest.length < (piece ++ c :: rest).length := by
      rw [List.length_append, List.length_cons]
      omega
    rw [hpieces, List.append_assoc, List.cons_append, pieces_append_cut hpiece hc,
      List.filterMap_cons, List.filterMap_cons, ih rest.length hshorter rest rfl]

/-! ## Strings between separators -/

theorem map_ofList_map_toList (names : List String) :
    (names.map String.toList).map String.ofList = names := by
  have hid : String.ofList ∘ String.toList = id := funext fun name => String.ofList_toList
  rw [List.map_map, hid, List.map_id]

/-- Names without the separator are what stands between the separators that join them. -/
theorem splitAt_intercalate {joint : String} {c : Char} (hjoint : joint.toList = [c])
    {names : List String} (hne : names ≠ []) (h : ∀ name ∈ names, c ∉ name.toList) :
    splitAt c (joint.intercalate names) = names := by
  have hnames : ∀ s ∈ names.map String.toList, c ∉ s := by
    intro s hs
    obtain ⟨name, hname, rfl⟩ := List.mem_map.mp hs
    exact h name hname
  unfold splitAt
  rw [String.toList_intercalate, hjoint, pieces_intercalate hnames (by simpa using hne),
    map_ofList_map_toList]

/-- What stands between the separators of a text makes up the text again. -/
theorem intercalate_splitAt {joint : String} {c : Char} (hjoint : joint.toList = [c])
    (text : String) : joint.intercalate (splitAt c text) = text := by
  have hid : String.toList ∘ String.ofList = id := funext fun piece => String.toList_ofList
  apply String.toList_injective
  unfold splitAt
  rw [String.toList_intercalate, hjoint, List.map_map, hid, List.map_id, pieces_eq_splitOnP]
  exact List.intercalate_splitOn c

/-- No separator stands between separators. -/
theorem not_mem_of_mem_splitAt {c : Char} {text name : String} (h : name ∈ splitAt c text) :
    c ∉ name.toList := by
  obtain ⟨piece, hpiece, rfl⟩ := List.mem_map.mp h
  rw [String.toList_ofList]
  intro hmem
  have hcut := (mem_of_mem_pieces hpiece hmem).2
  simp at hcut

/-! ## Trimming -/

/-- White space and nothing else. -/
def Blank (text : List Char) : Prop :=
  ∀ c ∈ text, isBlank c = true

/-- A text that neither begins nor ends with white space. -/
def Tight (text : List Char) : Prop :=
  (∀ c ∈ text.head?, isBlank c = false) ∧ ∀ c ∈ text.getLast?, isBlank c = false

section Runs

variable {α : Type} {p : α → Bool} {front rest : List α}

/-- A run is taken as far as it goes. -/
theorem takeWhile_append_of_stop (hfront : ∀ x ∈ front, p x = true)
    (hrest : ∀ x ∈ rest.head?, p x = false) : (front ++ rest).takeWhile p = front := by
  rw [List.takeWhile_append_of_pos hfront]
  cases rest with
  | nil => simp
  | cons x rest => simp [hrest x rfl]

theorem dropWhile_append_of_stop (hfront : ∀ x ∈ front, p x = true)
    (hrest : ∀ x ∈ rest.head?, p x = false) : (front ++ rest).dropWhile p = rest := by
  rw [List.dropWhile_append_of_pos hfront]
  cases rest with
  | nil => rfl
  | cons x rest => simp [hrest x rfl]

theorem eq_false_of_mem_head?_dropWhile {l : List α} {x : α} (h : x ∈ (l.dropWhile p).head?) :
    p x = false := by
  have hnot := List.head?_dropWhile_not p l
  rw [Option.mem_def.mp h] at hnot
  exact hnot

end Runs

/-- A text that neither begins nor ends with a character of a class. -/
def TrimmedBy (drop : Char → Bool) (text : List Char) : Prop :=
  (∀ c ∈ text.head?, drop c = false) ∧ ∀ c ∈ text.getLast?, drop c = false

section TrimBy

variable {drop : Char → Bool}

/-- Trimming takes the characters of the class at both ends and no more. -/
theorem trimBy_append {before text after : List Char} (hbefore : ∀ c ∈ before, drop c = true)
    (htext : TrimmedBy drop text) (hafter : ∀ c ∈ after, drop c = true) :
    trimBy drop (before ++ text ++ after) = text := by
  have hreverse : ∀ c ∈ after.reverse, drop c = true :=
    fun c hc => hafter c (List.mem_reverse.mp hc)
  unfold trimBy trimEndBy
  rw [List.append_assoc]
  cases text with
  | nil =>
      rw [List.nil_append, List.dropWhile_append_of_pos hbefore,
        List.dropWhile_eq_nil_iff.mpr hafter]
      rfl
  | cons c text =>
      rw [dropWhile_append_of_stop hbefore (by simpa using htext.1), List.reverse_append,
        dropWhile_append_of_stop hreverse, List.reverse_reverse]
      intro d hd
      rw [List.head?_reverse] at hd
      exact htext.2 d hd

/-- Every text is what trimming leaves, with characters of the class around it. -/
theorem exists_eq_trimBy (drop : Char → Bool) (text : List Char) :
    ∃ before after, (∀ c ∈ before, drop c = true) ∧ (∀ c ∈ after, drop c = true) ∧
      TrimmedBy drop (trimBy drop text) ∧ text = before ++ trimBy drop text ++ after := by
  have hfront : ∀ c ∈ text.takeWhile drop, drop c = true := fun c hc => List.mem_takeWhile_imp hc
  have hback : ∀ c ∈ ((text.dropWhile drop).reverse.takeWhile drop).reverse, drop c = true :=
    fun c hc => List.mem_takeWhile_imp (List.mem_reverse.mp hc)
  have hsplit : text.dropWhile drop =
      trimBy drop text ++ ((text.dropWhile drop).reverse.takeWhile drop).reverse := by
    unfold trimBy trimEndBy
    rw [← List.reverse_append, List.takeWhile_append_dropWhile, List.reverse_reverse]
  refine ⟨_, _, hfront, hback, ⟨?_, ?_⟩, ?_⟩
  · intro c hc
    apply eq_false_of_mem_head?_dropWhile (p := drop) (l := text)
    rw [hsplit, List.head?_append, Option.mem_def.mp hc]
    rfl
  · intro c hc
    apply eq_false_of_mem_head?_dropWhile (p := drop) (l := (text.dropWhile drop).reverse)
    rw [← List.getLast?_reverse]
    exact hc
  · rw [List.append_assoc, ← hsplit, List.takeWhile_append_dropWhile]

/-- Trimming keeps a text exactly if there is nothing to trim. -/
theorem trimBy_eq_self_iff {text : List Char} : trimBy drop text = text ↔ TrimmedBy drop text := by
  obtain ⟨-, -, -, -, htrimmed, -⟩ := exists_eq_trimBy drop text
  constructor
  · intro h
    rwa [h] at htrimmed
  · intro h
    have htrim : trimBy drop ([] ++ text ++ []) = text :=
      trimBy_append (List.forall_mem_nil _) h (List.forall_mem_nil _)
    rwa [List.nil_append, List.append_nil] at htrim

/-- What trimming leaves stands in the text as it is. -/
theorem trimBy_isInfix (drop : Char → Bool) (text : List Char) : trimBy drop text <:+: text := by
  obtain ⟨before, after, -, -, -, htext⟩ := exists_eq_trimBy drop text
  exact ⟨before, after, htext.symm⟩

end TrimBy

/-- Trimming takes the white space at both ends and no more. -/
theorem trim_append {before text after : List Char} (hbefore : Blank before) (htext : Tight text)
    (hafter : Blank after) : trim (before ++ text ++ after) = text :=
  trimBy_append hbefore htext hafter

/-- Every text is what trimming leaves, with white space around it. -/
theorem exists_eq_trim (text : List Char) :
    ∃ before after, Blank before ∧ Blank after ∧ Tight (trim text) ∧
      text = before ++ trim text ++ after :=
  exists_eq_trimBy isBlank text

theorem trim_eq_self_iff {text : List Char} : trim text = text ↔ Tight text :=
  trimBy_eq_self_iff

/-- A text that is no longer than what trimming leaves of it has nothing to trim. -/
theorem tight_of_length_le {text : List Char} (h : text.length ≤ (trim text).length) :
    Tight text :=
  trim_eq_self_iff.mp ((trimBy_isInfix isBlank text).eq_of_length_le h)

theorem dropWhile_of_all_false {α : Type} {p : α → Bool} {l : List α} (h : ∀ x ∈ l, p x = false) :
    l.dropWhile p = l := by
  cases l with
  | nil => rfl
  | cons a rest => rw [List.dropWhile_cons_of_neg (by rw [h a List.mem_cons_self]; simp)]

/-- A text without blanks is trimmed already. -/
theorem trim_of_no_blank {text : List Char} (h : ∀ c ∈ text, isBlank c = false) :
    trim text = text := by
  unfold trim trimBy trimEndBy
  rw [dropWhile_of_all_false h]
  rw [dropWhile_of_all_false fun c hc => h c (List.mem_reverse.mp hc), List.reverse_reverse]

/-! ## Replacing -/

theorem replaceChar_of_not_mem {old new : Char} {text : List Char} (h : old ∉ text) :
    replaceChar old new text = text := by
  unfold replaceChar
  have hsame : ∀ c ∈ text, (if c == old then new else c) = c := by
    intro c hc
    rw [if_neg]
    intro heq
    exact h (eq_of_beq heq ▸ hc)
  rw [List.map_congr_left hsame]
  exact List.map_id' text

/-- Replacing there and back is no change where the new character did not occur before. -/
theorem replaceChar_replaceChar {old new : Char} {text : List Char} (h : new ∉ text) :
    replaceChar new old (replaceChar old new text) = text := by
  unfold replaceChar
  rw [List.map_map]
  have hsame : ∀ c ∈ text, ((fun c => if c == new then old else c) ∘
      fun c => if c == old then new else c) c = c := by
    intro c hc
    show (if (if c == old then new else c) == new then old else
      if c == old then new else c) = c
    by_cases heq : c = old
    · simp [heq]
    · have hne : c ≠ new := fun hcn => h (hcn ▸ hc)
      simp [heq, hne]
  rw [List.map_congr_left hsame]
  exact List.map_id' text

/-- Cutting at a character that was put for another is cutting at the other, where the new one did
not occur before. -/
theorem pieces_replaceChar {old new : Char} {text : List Char} (h : new ∉ text) :
    pieces (· == new) (replaceChar old new text) = pieces (· == old) text := by
  induction text with
  | nil => rfl
  | cons c rest ih =>
      obtain ⟨hc, hrest⟩ := not_or.mp (mt List.mem_cons.mpr h)
      rw [replaceChar, List.map_cons, ← replaceChar, pieces, pieces, ih hrest]
      by_cases hold : c = old
      · simp [hold]
      · have hnew : c ≠ new := fun heq => hc heq.symm
        simp [hold, hnew]

/-! ## Sets of strings -/

/-- A string is among those of some texts exactly if its characters are one of them. -/
theorem mem_ofList_map_ofList {texts : List (List Char)} {name : String} :
    name ∈ OrderedSet.ofList (texts.map String.ofList) ↔ name.toList ∈ texts := by
  rw [OrderedSet.mem_ofList, List.mem_map]
  constructor
  · rintro ⟨chars, hchars, rfl⟩
    rwa [String.toList_ofList]
  · intro h
    exact ⟨name.toList, h, String.ofList_toList⟩

end SourceAtlas.Text
