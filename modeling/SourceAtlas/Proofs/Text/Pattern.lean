/-
# SourceAtlas.Proofs.Text.Pattern — what patterns stand for.

`Reads` says which texts a pattern stands for, between the character before them and the text behind
them, whatever way is tried first.  The matcher reads nothing else (`exists_reads_of_run`) and gives
up only if no way lets the rest match (`isSome_run`).

An inline pattern stands for no text with a line end.  It does not look past its line: what the
matcher makes of it is the same whatever follows the line (`run_line`).
-/
import Mathlib.Data.List.Basic
import SourceAtlas.Text.Pattern

namespace SourceAtlas.Text

variable {α β : Type} {allowed : Char → Bool} {before : Option Char}
  {text read rest line tail : List Char}

/-! ## What a pattern stands for -/

/-- The character before the place behind a text. -/
def behind (before : Option Char) (read : List Char) : Option Char :=
  read.getLast?.or before

theorem behind_append (xs ys : List Char) :
    behind before (xs ++ ys) = behind (behind before xs) ys := by
  unfold behind
  rw [List.getLast?_append, Option.or_assoc]

theorem behind_cons (c : Char) (read : List Char) :
    behind before (c :: read) = behind (some c) read :=
  behind_append [c] read

theorem all_newline_iff {c? : Option Char} :
    c?.all (· == '\n') = true ↔ ∀ c ∈ c?, c = '\n' := by
  cases c? with
  | none => simp
  | some c => simp

theorem exists_behind_of_ne_nil (before : Option Char) (hne : read ≠ []) :
    ∃ c ∈ read, behind before read = some c := by
  obtain ⟨c, hc⟩ := Option.ne_none_iff_exists'.mp (mt List.getLast?_eq_none_iff.mp hne)
  refine ⟨c, List.mem_of_getLast? hc, ?_⟩
  unfold behind
  rw [hc, Option.some_or]

namespace Pattern

/-- **`Reads pattern before read rest`** — the pattern stands for the text `read` where the
character `before` comes before it and the text `rest` behind it. -/
def Reads : Pattern → Option Char → List Char → List Char → Prop
  | empty, _, read, _ => read = []
  | lineStart, before, read, _ => read = [] ∧ ∀ c ∈ before, c = '\n'
  | lineEnd, _, read, rest => read = [] ∧ ∀ c ∈ rest.head?, c = '\n'
  | wordEdge, before, read, rest => read = [] ∧ before.any isWord ≠ rest.head?.any isWord
  | one allowed, _, read, _ => ∃ c, allowed c = true ∧ read = [c]
  | span _ allowed, _, read, _ => ∀ c ∈ read, allowed c = true
  | maybe pattern, before, read, rest => pattern.Reads before read rest ∨ read = []
  | both first second, before, read, rest => ∃ xs ys, read = xs ++ ys ∧
      first.Reads before xs (ys ++ rest) ∧ second.Reads (behind before xs) ys rest

theorem reads_word {chars : List Char} : (word chars).Reads before read rest ↔ read = chars := by
  induction chars generalizing before read with
  | nil => exact Iff.rfl
  | cons c chars ih =>
      constructor
      · rintro ⟨_, ys, rfl, ⟨d, hd, rfl⟩, hys⟩
        rw [ih.mp hys, eq_of_beq hd]
        rfl
      · rintro rfl
        exact ⟨[c], chars, rfl, ⟨c, beq_self_eq_true c, rfl⟩, ih.mpr rfl⟩

theorem reads_atLeastOne : (atLeastOne allowed).Reads before read rest ↔
    (∀ c ∈ read, allowed c = true) ∧ read ≠ [] := by
  constructor
  · rintro ⟨_, ys, rfl, ⟨c, hc, rfl⟩, hys⟩
    exact ⟨List.forall_mem_cons.mpr ⟨hc, hys⟩, List.cons_ne_nil _ _⟩
  · rintro ⟨hread, hne⟩
    obtain ⟨c, more, rfl⟩ := List.exists_cons_of_ne_nil hne
    obtain ⟨hc, hmore⟩ := List.forall_mem_cons.mp hread
    exact ⟨[c], more, rfl, ⟨c, hc, rfl⟩, hmore⟩

/-! ## The matcher -/

section Matcher

variable {pattern : Pattern} {next : Place → Option α} {a : α}

/-- Of two ways that are tried in some order one has the result. -/
theorem eq_some_of_tried {longest : Bool} {longer here : Option α}
    (h : (if longest then longer.or here else here.or longer) = some a) :
    longer = some a ∨ here = some a := by
  cases longest with
  | true => exact (Option.or_eq_some_iff.mp h).imp_right And.right
  | false => exact ((Option.or_eq_some_iff.mp h).imp_right And.right).symm

/-- If one of the two ways has a result, trying both has one. -/
theorem isSome_tried (longest : Bool) {longer here : Option α} (h : longer.isSome ∨ here.isSome) :
    (if longest then longer.or here else here.or longer).isSome := by
  cases longest with
  | true =>
      rw [if_pos rfl, Option.isSome_or, Bool.or_eq_true]
      exact h
  | false =>
      rw [if_neg Bool.false_ne_true, Option.isSome_or, Bool.or_eq_true]
      exact h.symm

theorem exists_of_runSpan {longest : Bool}
    (h : runSpan longest allowed next before text = some a) :
    ∃ read rest, text = read ++ rest ∧ (∀ c ∈ read, allowed c = true) ∧
      next ⟨behind before read, rest⟩ = some a := by
  induction text generalizing before with
  | nil => exact ⟨[], [], rfl, List.forall_mem_nil _, h⟩
  | cons c text ih =>
      have hhere (h : next ⟨before, c :: text⟩ = some a) : ∃ read rest, c :: text = read ++ rest ∧
          (∀ c ∈ read, allowed c = true) ∧ next ⟨behind before read, rest⟩ = some a :=
        ⟨[], c :: text, rfl, List.forall_mem_nil _, h⟩
      unfold runSpan at h
      split at h
      · rename_i hc
        rcases eq_some_of_tried h with h | h
        · obtain ⟨read, rest, rfl, hread, hnext⟩ := ih h
          exact ⟨c :: read, rest, rfl, List.forall_mem_cons.mpr ⟨hc, hread⟩,
            by rwa [behind_cons]⟩
        · exact hhere h
      · exact hhere h

/-- **The matcher reads only what the pattern stands for.** -/
theorem exists_reads_of_run (h : pattern.run ⟨before, text⟩ next = some a) :
    ∃ read rest, text = read ++ rest ∧ pattern.Reads before read rest ∧
      next ⟨behind before read, rest⟩ = some a := by
  induction pattern generalizing before text next with
  | empty => exact ⟨[], text, rfl, rfl, h⟩
  | lineStart =>
      obtain ⟨hstart, h⟩ := Option.ite_none_right_eq_some.mp h
      exact ⟨[], text, rfl, ⟨rfl, all_newline_iff.mp hstart⟩, h⟩
  | lineEnd =>
      obtain ⟨hend, h⟩ := Option.ite_none_right_eq_some.mp h
      exact ⟨[], text, rfl, ⟨rfl, all_newline_iff.mp hend⟩, h⟩
  | wordEdge =>
      obtain ⟨hedge, h⟩ := Option.ite_none_right_eq_some.mp h
      exact ⟨[], text, rfl, ⟨rfl, bne_iff_ne.mp hedge⟩, h⟩
  | one allowed =>
      cases text with
      | nil => cases h
      | cons c text =>
          obtain ⟨hc, h⟩ := Option.ite_none_right_eq_some.mp h
          exact ⟨[c], text, rfl, ⟨c, hc, rfl⟩, h⟩
  | span longest allowed => exact exists_of_runSpan h
  | maybe pattern ih =>
      rcases Option.or_eq_some_iff.mp h with h | ⟨-, h⟩
      · obtain ⟨read, rest, rfl, hreads, hnext⟩ := ih h
        exact ⟨read, rest, rfl, Or.inl hreads, hnext⟩
      · exact ⟨[], text, rfl, Or.inr rfl, h⟩
  | both first second ihFirst ihSecond =>
      obtain ⟨xs, mid, rfl, hfirst, h⟩ := ihFirst h
      obtain ⟨ys, rest, rfl, hsecond, hnext⟩ := ihSecond h
      exact ⟨xs ++ ys, rest, (List.append_assoc _ _ _).symm, ⟨xs, ys, rfl, hfirst, hsecond⟩,
        by rwa [behind_append]⟩

theorem isSome_runSpan (longest : Bool) (hread : ∀ c ∈ read, allowed c = true)
    (hnext : (next ⟨behind before read, rest⟩).isSome) :
    (runSpan longest allowed next before (read ++ rest)).isSome := by
  induction read generalizing before with
  | nil =>
      cases rest with
      | nil => exact hnext
      | cons c rest =>
          rw [List.nil_append]
          unfold runSpan
          split
          · exact isSome_tried longest (Or.inr hnext)
          · exact hnext
  | cons c read ih =>
      obtain ⟨hc, hread⟩ := List.forall_mem_cons.mp hread
      rw [behind_cons] at hnext
      rw [List.cons_append]
      unfold runSpan
      rw [if_pos hc]
      exact isSome_tried longest (Or.inl (ih hread hnext))

/-- **The matcher gives up only if no way lets the rest match.** -/
theorem isSome_run (hreads : pattern.Reads before read rest)
    (hnext : (next ⟨behind before read, rest⟩).isSome) :
    (pattern.run ⟨before, read ++ rest⟩ next).isSome := by
  induction pattern generalizing before read rest next with
  | empty =>
      obtain rfl := hreads
      exact hnext
  | lineStart =>
      obtain ⟨rfl, hstart⟩ := hreads
      unfold run
      rwa [if_pos (all_newline_iff.mpr hstart)]
  | lineEnd =>
      obtain ⟨rfl, hend⟩ := hreads
      unfold run
      rwa [List.nil_append, if_pos (all_newline_iff.mpr hend)]
  | wordEdge =>
      obtain ⟨rfl, hedge⟩ := hreads
      unfold run
      rwa [List.nil_append, if_pos (bne_iff_ne.mpr hedge)]
  | one allowed =>
      obtain ⟨c, hc, rfl⟩ := hreads
      show (if allowed c then next ⟨some c, rest⟩ else none).isSome = true
      rwa [if_pos hc]
  | span longest allowed => exact isSome_runSpan longest hreads hnext
  | maybe pattern ih =>
      unfold run
      rw [Option.isSome_or, Bool.or_eq_true]
      rcases hreads with hreads | rfl
      · exact Or.inl (ih hreads hnext)
      · exact Or.inr hnext
  | both first second ihFirst ihSecond =>
      obtain ⟨xs, ys, rfl, hfirst, hsecond⟩ := hreads
      rw [List.append_assoc]
      rw [behind_append] at hnext
      exact ihFirst hfirst (ihSecond hsecond hnext)

/-- A pattern is at a place if it stands for a text there. -/
theorem isAt_iff : pattern.isAt ⟨before, text⟩ = true ↔
    ∃ read rest, text = read ++ rest ∧ pattern.Reads before read rest := by
  unfold isAt
  constructor
  · intro h
    obtain ⟨place, hrun⟩ := Option.isSome_iff_exists.mp h
    obtain ⟨read, rest, htext, hreads, -⟩ := exists_reads_of_run hrun
    exact ⟨read, rest, htext, hreads⟩
  · rintro ⟨read, rest, rfl, hreads⟩
    exact isSome_run hreads rfl

end Matcher

/-! ## Patterns within a line -/

/-- Whether the pattern stands for no text with a line end. -/
def isInline : Pattern → Bool
  | one allowed => !allowed '\n'
  | span _ allowed => !allowed '\n'
  | maybe pattern => pattern.isInline
  | both first second => first.isInline && second.isInline
  | _ => true

/-- **`SameEdge before before'`** — the two characters are alike, where a line end is like the
beginning of a text. -/
def SameEdge (before before' : Option Char) : Prop :=
  before.getD '\n' = before'.getD '\n'

theorem SameEdge.all_newline {before before' : Option Char} (h : SameEdge before before') :
    before'.all (· == '\n') = before.all (· == '\n') := by
  have hgetD : ∀ c? : Option Char, c?.all (· == '\n') = (c?.getD '\n' == '\n') := by
    intro c?
    cases c? with
    | none => rfl
    | some c => rfl
  rw [hgetD, hgetD, h]

theorem SameEdge.any_isWord {before before' : Option Char} (h : SameEdge before before') :
    before'.any isWord = before.any isWord := by
  have hgetD : ∀ c? : Option Char, c?.any isWord = isWord (c?.getD '\n') := by
    intro c?
    cases c? with
    | none => rfl
    | some c => rfl
  rw [hgetD, hgetD, h]

section Line

variable {pattern : Pattern} {before' : Option Char} {next : Place → Option α}
  {next' : Place → Option β} {related : α → β → Prop}

theorem rel_or {a b : Option α} {a' b' : Option β} (h : Option.Rel related a a')
    (h' : Option.Rel related b b') : Option.Rel related (a.or b) (a'.or b') := by
  cases h with
  | some h => exact .some h
  | none => exact h'

theorem rel_ite {a : Option α} {a' : Option β} (h : Option.Rel related a a') (p : Prop)
    [Decidable p] : Option.Rel related (if p then a else none) (if p then a' else none) := by
  split
  · exact h
  · exact .none

theorem runSpan_line (longest : Bool) (hinline : allowed '\n' = false)
    (htail : ∀ c ∈ tail.head?, c = '\n')
    (hnext : ∀ before before' rest, SameEdge before before' →
      Option.Rel related (next ⟨before, rest⟩) (next' ⟨before', rest ++ tail⟩))
    (hbefore : SameEdge before before') :
    Option.Rel related (runSpan longest allowed next before line)
      (runSpan longest allowed next' before' (line ++ tail)) := by
  induction line generalizing before before' with
  | nil =>
      have hhere := hnext before before' [] hbefore
      cases tail with
      | nil => exact hhere
      | cons c tail =>
          obtain rfl : c = '\n' := htail c rfl
          rw [List.nil_append]
          unfold runSpan
          rwa [if_neg (by simp [hinline])]
  | cons c line ih =>
      have hhere := hnext before before' (c :: line) hbefore
      rw [List.cons_append]
      unfold runSpan
      split
      · cases longest with
        | true => exact rel_or (ih rfl) hhere
        | false => exact rel_or hhere (ih rfl)
      · exact hhere

/-- **An inline pattern does not look past its line**: it is read alike whatever follows
the line. -/
theorem run_line (hinline : pattern.isInline = true) (htail : ∀ c ∈ tail.head?, c = '\n')
    (hnext : ∀ before before' rest, SameEdge before before' →
      Option.Rel related (next ⟨before, rest⟩) (next' ⟨before', rest ++ tail⟩))
    (hbefore : SameEdge before before') :
    Option.Rel related (pattern.run ⟨before, line⟩ next)
      (pattern.run ⟨before', line ++ tail⟩ next') := by
  induction pattern generalizing before before' line next next' with
  | empty => exact hnext before before' line hbefore
  | lineStart =>
      unfold run
      rw [hbefore.all_newline]
      exact rel_ite (hnext before before' line hbefore) _
  | lineEnd =>
      have hend : (line ++ tail).head?.all (· == '\n') = line.head?.all (· == '\n') := by
        cases line with
        | nil => exact all_newline_iff.mpr htail
        | cons c line => rfl
      unfold run
      rw [hend]
      exact rel_ite (hnext before before' line hbefore) _
  | wordEdge =>
      have hedge : (line ++ tail).head?.any isWord = line.head?.any isWord := by
        cases line with
        | nil =>
            cases tail with
            | nil => rfl
            | cons c tail =>
                obtain rfl : c = '\n' := htail c rfl
                rfl
        | cons c line => rfl
      unfold run
      rw [hbefore.any_isWord, hedge]
      exact rel_ite (hnext before before' line hbefore) _
  | one allowed =>
      have hnewline : allowed '\n' = false := by simpa [isInline] using hinline
      cases line with
      | nil =>
          cases tail with
          | nil => exact .none
          | cons c tail =>
              obtain rfl : c = '\n' := htail c rfl
              unfold run
              simp only [List.nil_append, hnewline]
              exact .none
      | cons c line => exact rel_ite (hnext (some c) (some c) line rfl) _
  | span longest allowed =>
      exact runSpan_line longest (by simpa [isInline] using hinline) htail hnext hbefore
  | maybe pattern ih => exact rel_or (ih hinline hnext hbefore) (hnext before before' line hbefore)
  | both first second ihFirst ihSecond =>
      obtain ⟨hfirst, hsecond⟩ := Bool.and_eq_true_iff.mp hinline
      exact ihFirst hfirst (fun _ _ _ h => ihSecond hsecond hnext h) hbefore

end Line

end Pattern

end SourceAtlas.Text
