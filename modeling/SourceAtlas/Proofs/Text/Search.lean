/-
# SourceAtlas.Proofs.Text.Search — the names that a search finds.

A match is a lead, a name and a tail, one behind the other (`exists_reads_of_match?`).  If none of
them can hold a line end, then the names of a text are those of its lines (`names_eq_flatMap`): no
match reaches over the end of a line, and none is hidden by a match on another line.  A search that
begins where a line does finds one name in a line at most (`names_of_line`).
-/
import SourceAtlas.Proofs.Text.Pattern
import SourceAtlas.Proofs.Text.Piece

namespace SourceAtlas.Text

namespace Search

variable {search : Search} {before before' : Option Char} {finish : Place}
  {text rest line lead name tail : List Char}

/-! ## One match -/

/-- **`Reads search before lead name tail rest`** — the three texts are a match, one behind the
other. -/
structure Reads (search : Search) (before : Option Char) (lead name tail rest : List Char) :
    Prop where
  opens : search.lead.Reads before lead (name ++ (tail ++ rest))
  names : search.name.Reads (behind before lead) name (tail ++ rest)
  closes : search.tail.Reads (behind (behind before lead) name) tail rest

/-- What is matched is a lead, the name and a tail. -/
theorem exists_reads_of_match? (h : search.match? ⟨before, text⟩ = some (name, finish)) :
    ∃ lead tail, text = lead ++ (name ++ (tail ++ finish.rest)) ∧
      finish.before = behind before (lead ++ (name ++ tail)) ∧
        search.Reads before lead name tail finish.rest := by
  obtain ⟨lead, mid, rfl, hlead, h⟩ := Pattern.exists_reads_of_run h
  obtain ⟨named, mid', rfl, hname, h⟩ := Pattern.exists_reads_of_run h
  obtain ⟨tail, rest, rfl, htail, h⟩ := Pattern.exists_reads_of_run h
  obtain ⟨rfl, rfl⟩ := Prod.mk.inj (Option.some.inj h)
  have hnamed : (named ++ (tail ++ rest)).take
      ((named ++ (tail ++ rest)).length - (tail ++ rest).length) = named := by
    rw [List.length_append, Nat.add_sub_cancel, List.take_left]
  rw [hnamed]
  refine ⟨lead, tail, rfl, ?_, hlead, hname, htail⟩
  rw [behind_append, behind_append]

/-- A lead, a name and a tail are matched, though perhaps in another way. -/
theorem isSome_match? (h : search.Reads before lead name tail rest) :
    (search.match? ⟨before, lead ++ (name ++ (tail ++ rest))⟩).isSome :=
  Pattern.isSome_run h.opens (Pattern.isSome_run h.names (Pattern.isSome_run h.closes rfl))

/-- Whether no match has a line end. -/
def isInline (search : Search) : Bool :=
  search.lead.isInline && search.name.isInline && search.tail.isInline

/-- A match is the same whatever follows its line. -/
theorem match?_line (hinline : search.isInline = true)
    (htail : ∀ c ∈ tail.head?, c = '\n') (hbefore : Pattern.SameEdge before before') :
    Option.Rel (fun found found' => found.1 = found'.1 ∧
        Pattern.SameEdge found.2.before found'.2.before ∧ found'.2.rest = found.2.rest ++ tail)
      (search.match? ⟨before, line⟩) (search.match? ⟨before', line ++ tail⟩) := by
  unfold isInline at hinline
  obtain ⟨hfirst, htailInline⟩ := Bool.and_eq_true_iff.mp hinline
  obtain ⟨hleadInline, hnameInline⟩ := Bool.and_eq_true_iff.mp hfirst
  refine Pattern.run_line hleadInline htail (fun _ _ opened hopened => ?_) hbefore
  refine Pattern.run_line hnameInline htail (fun _ _ closed hclosed => ?_) hopened
  refine Pattern.run_line htailInline htail (fun _ _ rest hrest => .some ⟨?_, hrest, rfl⟩) hclosed
  show opened.take _ = (opened ++ tail).take _
  rw [List.length_append, List.length_append, Nat.add_sub_add_right,
    List.take_append_of_le_length (Nat.sub_le _ _)]

/-! ## All matches -/

/-- A match names its name, and the search goes on behind it. -/
theorem names_of_match? {c : Char} (h : search.match? ⟨before, c :: rest⟩ = some (name, finish))
    (hlength : finish.rest.length ≤ rest.length) :
    search.names before (c :: rest) = name :: search.names finish.before finish.rest := by
  rw [names, h]
  exact if_pos hlength

/-- Where nothing is matched, the search goes on behind the next character. -/
theorem names_of_none {c : Char} (h : search.match? ⟨before, c :: rest⟩ = none) :
    search.names before (c :: rest) = search.names (some c) rest := by
  rw [names, h]

/-- So it does where no character is matched. -/
theorem names_of_void {c : Char} (h : search.match? ⟨before, c :: rest⟩ = some (name, finish))
    (hlength : rest.length < finish.rest.length) :
    search.names before (c :: rest) = search.names (some c) rest := by
  rw [names, h]
  exact if_neg (Nat.not_le.mpr hlength)

/-- **The names of a line and of what follows it** are those of the line and those that are found
behind the line end. -/
theorem names_line (hinline : search.isInline = true)
    (htail : ∀ c ∈ tail.head?, c = '\n') (hbefore : Pattern.SameEdge before before') :
    search.names before' (line ++ tail) =
      search.names before line ++ search.names (some '\n') tail.tail := by
  induction hlength : line.length using Nat.strong_induction_on
    generalizing line before before' with
  | _ length ih =>
  subst hlength
  have hmatch : Option.Rel _ (search.match? ⟨before, line⟩)
      (search.match? ⟨before', line ++ tail⟩) := match?_line hinline htail hbefore
  generalize hfound : search.match? ⟨before, line⟩ = found at hmatch
  generalize hfound' : search.match? ⟨before', line ++ tail⟩ = found' at hmatch
  cases line with
  | nil =>
      cases tail with
      | nil => simp only [List.append_nil, List.tail_nil, names]
      | cons c tail =>
          obtain rfl : c = '\n' := htail c rfl
          rw [List.nil_append] at hfound' ⊢
          rw [names, List.nil_append, List.tail_cons]
          cases hmatch with
          | none => exact names_of_none hfound'
          | some h =>
              refine names_of_void hfound' ?_
              rw [h.2.2, List.length_append, List.length_cons]
              omega
  | cons c line =>
      have hnext : search.names (some c) (line ++ tail) =
          search.names (some c) line ++ search.names (some '\n') tail.tail :=
        ih line.length (Nat.lt_succ_self _) rfl rfl
      rw [List.cons_append] at hfound' ⊢
      cases hmatch with
      | none => rw [names_of_none hfound, names_of_none hfound', hnext]
      | some h =>
          rename_i found found'
          obtain ⟨hname, hedge, hrest⟩ := h
          have hlengths : found'.2.rest.length = found.2.rest.length + tail.length := by
            rw [hrest, List.length_append]
          by_cases hlength : found.2.rest.length ≤ line.length
          · have hlength' : found'.2.rest.length ≤ (line ++ tail).length := by
              rw [hlengths, List.length_append]
              omega
            rw [names_of_match? hfound hlength, names_of_match? hfound' hlength', hrest, hname,
              ih found.2.rest.length (Nat.lt_succ_of_le hlength) hedge rfl, List.cons_append]
          · have hlength' : (line ++ tail).length < found'.2.rest.length := by
              rw [hlengths, List.length_append]
              omega
            rw [names_of_void hfound (Nat.lt_of_not_le hlength), names_of_void hfound' hlength',
              hnext]

/-- **The names of a text are the names of its lines.** -/
theorem names_eq_flatMap (hinline : search.isInline = true) (text : List Char) :
    search.names none text = (pieces (· == '\n') text).flatMap (search.names none) := by
  induction hlength : text.length using Nat.strong_induction_on generalizing text with
  | _ length ih =>
  subst hlength
  rcases pieces_cases (· == '\n') text with ⟨-, hpieces⟩ | ⟨line, c, rest, -, hc, rfl, hpieces⟩
  · rw [hpieces, List.flatMap_singleton]
  · obtain rfl : c = '\n' := eq_of_beq hc
    have hedge : search.names (some '\n') rest = search.names none rest := by
      have h : search.names (some '\n') (rest ++ []) = _ :=
        names_line hinline (by simp) (rfl : Pattern.SameEdge none (some '\n'))
      rwa [List.append_nil, List.tail_nil, names, List.append_nil] at h
    have hline : search.names none (line ++ '\n' :: rest) = _ :=
      names_line hinline (by simp) (rfl : Pattern.SameEdge none none)
    rw [hline, hpieces, List.flatMap_cons, List.tail_cons, hedge,
      ih rest.length (by rw [List.length_append, List.length_cons]; omega) rest rfl]

/-! ## One line -/

/-- **`IsLinewise search`** — a match begins where a line does, does not reach over the end of the
line and is not empty. -/
structure IsLinewise (search : Search) : Prop where
  starts : ∃ pattern, search.lead = .both .lineStart pattern
  inline : search.isInline = true
  takes : ∀ {before read rest}, search.lead.Reads before read rest → read ≠ []

/-- Within a line nothing begins. -/
theorem names_within_line (hlinewise : search.IsLinewise) {c : Char} (hc : c ≠ '\n')
    (hline : '\n' ∉ line) : search.names (some c) line = [] := by
  induction line generalizing c with
  | nil => rw [names]
  | cons d line ih =>
      rw [List.mem_cons, not_or] at hline
      rw [names_of_none, ih (Ne.symm hline.1) hline.2]
      refine Option.eq_none_iff_forall_not_mem.mpr fun found h => ?_
      obtain ⟨pattern, hlead⟩ := hlinewise.starts
      obtain ⟨lead, tail, -, -, hreads⟩ := exists_reads_of_match? h
      have hopens := hreads.opens
      rw [hlead] at hopens
      obtain ⟨xs, ys, -, ⟨-, hstart⟩, -⟩ := hopens
      exact hc (hstart c rfl)

/-- **A line has one name at most**, which is matched where the line begins. -/
theorem names_of_line (hlinewise : search.IsLinewise) (hline : '\n' ∉ line) :
    search.names none line = ((search.match? ⟨none, line⟩).map Prod.fst).toList := by
  cases hmatch : search.match? ⟨none, line⟩ with
  | none =>
      cases line with
      | nil =>
          rw [names]
          rfl
      | cons c line =>
          have hnewline : c ≠ '\n' := fun h => hline (h ▸ List.mem_cons_self)
          rw [names_of_none hmatch,
            names_within_line hlinewise hnewline fun h => hline (List.mem_cons_of_mem c h)]
          rfl
  | some found =>
      obtain ⟨name, finish⟩ := found
      obtain ⟨lead, tail, htext, hbefore, hreads⟩ := exists_reads_of_match? hmatch
      obtain ⟨c, lead, rfl⟩ := List.exists_cons_of_ne_nil (hlinewise.takes hreads.opens)
      -- behind the match the line has begun
      have hread : line = (c :: (lead ++ (name ++ tail))) ++ finish.rest := by
        rw [htext]
        simp only [List.cons_append, List.append_assoc]
      obtain ⟨d, hd, hbehind⟩ :=
        exists_behind_of_ne_nil none (List.cons_ne_nil c (lead ++ (name ++ tail)))
      rw [hread, List.mem_append, not_or] at hline
      rw [hread, List.cons_append] at hmatch ⊢
      rw [names_of_match? hmatch (by rw [List.length_append]; omega), hbefore, List.cons_append,
        hbehind, names_within_line hlinewise (fun h => hline.1 (h ▸ hd)) hline.2]
      rfl

/-- A name of a line is matched in the line. -/
theorem exists_reads_of_mem_names (hlinewise : search.IsLinewise) (hline : '\n' ∉ line)
    (h : name ∈ search.names none line) :
    ∃ lead tail rest, line = lead ++ (name ++ (tail ++ rest)) ∧
      search.Reads none lead name tail rest := by
  rw [names_of_line hlinewise hline, Option.mem_toList, Option.map_eq_some_iff] at h
  obtain ⟨⟨_, finish⟩, hmatch, rfl⟩ := h
  obtain ⟨lead, tail, htext, -, hreads⟩ := exists_reads_of_match? hmatch
  exact ⟨lead, tail, finish.rest, htext, hreads⟩

/-- A line with a match has a name, though perhaps another one. -/
theorem exists_mem_names (hlinewise : search.IsLinewise)
    (hline : '\n' ∉ lead ++ (name ++ (tail ++ rest))) (h : search.Reads none lead name tail rest) :
    ∃ name', name' ∈ search.names none (lead ++ (name ++ (tail ++ rest))) := by
  obtain ⟨found, hmatch⟩ := Option.isSome_iff_exists.mp (isSome_match? h)
  rw [names_of_line hlinewise hline, hmatch]
  exact ⟨found.1, List.mem_singleton_self _⟩

/-- A name of a line is its only one. -/
theorem names_eq_singleton (hlinewise : search.IsLinewise) (hline : '\n' ∉ line)
    (h : name ∈ search.names none line) : search.names none line = [name] := by
  rw [names_of_line hlinewise hline] at h ⊢
  rw [Option.mem_toList.mp h]
  rfl

end Search

end SourceAtlas.Text
