/-
# SourceAtlas.Proofs.Path.Normal — absolute paths as a front and a list of plain segments.

An absolute path in normal form is one or two slashes and then segments that the normal form keeps:
not empty, neither `.` nor `..`, and without a separator (`exists_plain_of_normal`).  On paths of
this shape every operation is an operation on lists of segments:

* joining appends the segments (`joinChars_plain`),
* the parent drops the last one (`parentChars_plain`),
* the normal form runs the stack machine of `collapse` (`normal_front`), and as many `..` as there
  are plain segments before them take exactly those away (`collapse_climb`).
-/
import SourceAtlas.Path
import SourceAtlas.Proofs.Text.Piece

namespace SourceAtlas.Path

open Text

/-! ## Slashes for backslashes -/

theorem slashed_append (front back : List Char) :
    slashed (front ++ back) = slashed front ++ slashed back :=
  List.map_append

theorem backslash_not_mem_slashed (path : List Char) : '\\' ∉ slashed path := by
  intro h
  obtain ⟨c, -, hc⟩ := List.mem_map.mp h
  split at hc
  · cases hc
  · rename_i hne
    exact hne (by rw [hc]; rfl)

/-! ## Plain segments -/

/-- **`IsPlain segment`** — the segment stands in every form of a path as it is. -/
def IsPlain (segment : List Char) : Prop :=
  segment ≠ [] ∧ segment ≠ dot ∧ segment ≠ dotDot ∧ '/' ∉ segment ∧ '\\' ∉ segment

instance : DecidablePred IsPlain :=
  fun _ => inferInstanceAs (Decidable (_ ∧ _ ∧ _ ∧ _ ∧ _))

theorem segments_eq_splitOn (path : List Char) : segments path = path.splitOn '/' :=
  pieces_eq_splitOnP (· == '/') path

theorem segments_ne_nil (path : List Char) : segments path ≠ [] :=
  pieces_ne_nil _ path

/-- A path has a last segment. -/
theorem exists_segments_concat (path : List Char) :
    ∃ dirs last, segments path = dirs ++ [last] := by
  rcases List.eq_nil_or_concat (segments path) with hnil | ⟨dirs, last, h⟩
  · exact absurd hnil (segments_ne_nil path)
  · exact ⟨dirs, last, by rw [h, List.concat_eq_append]⟩

theorem mem_of_mem_segments {path segment : List Char} {c : Char} (hs : segment ∈ segments path)
    (hc : c ∈ segment) : c ∈ path :=
  (mem_of_mem_pieces hs hc).1

theorem slash_not_mem_of_mem_segments {path segment : List Char} (hs : segment ∈ segments path) :
    '/' ∉ segment := by
  intro hslash
  have hcut := (mem_of_mem_pieces hs hslash).2
  simp at hcut

/-- Between the slashes of a path stands the whole path. -/
theorem joined_segments (path : List Char) : joined (segments path) = path := by
  rw [segments_eq_splitOn]
  exact List.intercalate_splitOn '/'

theorem segments_joined {parts : List (List Char)} (hne : parts ≠ [])
    (h : ∀ s ∈ parts, '/' ∉ s) : segments (joined parts) = parts := by
  rw [segments_eq_splitOn]
  exact List.splitOn_intercalate '/' h hne

theorem segments_cons_slash (path : List Char) : segments ('/' :: path) = [] :: segments path := by
  rw [segments_eq_splitOn, segments_eq_splitOn]
  exact List.splitOn_append_cons_self [] path

theorem joined_append {xs ys : List (List Char)} (hx : xs ≠ []) (hy : ys ≠ []) :
    joined (xs ++ ys) = joined xs ++ '/' :: joined ys := by
  induction xs with
  | nil => exact absurd rfl hx
  | cons x rest ih =>
      cases rest with
      | nil =>
          show joined (x :: ys) = joined [x] ++ '/' :: joined ys
          unfold joined
          rw [List.intercalate_cons_of_ne_nil hy]
          simp
      | cons y rest =>
          have hrest := ih (by simp)
          unfold joined at hrest ⊢
          rw [List.cons_append, List.intercalate_cons_of_ne_nil (by simp), hrest]
          simp

/-- What is put behind a path is put behind its last segment. -/
theorem joined_concat_append (parts : List (List Char)) (last rest : List Char) :
    joined (parts ++ [last]) ++ rest = joined (parts ++ [last ++ rest]) := by
  by_cases hparts : parts = []
  · subst hparts
    simp [joined]
  · rw [joined_append hparts (by simp), joined_append hparts (by simp)]
    simp [joined]

theorem head?_joined_ne_slash {parts : List (List Char)} (h : ∀ s ∈ parts, '/' ∉ s)
    (hhead : parts.head? ≠ some []) : (joined parts).head? ≠ some '/' := by
  cases parts with
  | nil => simp [joined]
  | cons s rest =>
      cases s with
      | nil => exact absurd rfl hhead
      | cons c s =>
          unfold joined
          rw [List.intercalate_cons_cons_left]
          intro heq
          have hc : c = '/' := by simpa using heq
          exact h (c :: s) List.mem_cons_self (hc ▸ List.mem_cons_self)

theorem head?_ne_nil_of_plain {parts : List (List Char)} (h : ∀ s ∈ parts, IsPlain s) :
    parts.head? ≠ some [] := by
  cases parts with
  | nil => simp
  | cons s rest =>
      intro heq
      exact (h s List.mem_cons_self).1 (Option.some.inj heq)

/-- A text made of plain segments ends in a character that is no slash. -/
theorem exists_last_of_plain {parts : List (List Char)} (hne : parts ≠ [])
    (h : ∀ s ∈ parts, IsPlain s) : ∃ body c, joined parts = body ++ [c] ∧ c ≠ '/' := by
  obtain ⟨before, last, rfl⟩ := List.eq_nil_or_concat parts |>.resolve_left hne
  have hlast : IsPlain last := h last (by simp)
  obtain ⟨front, c, rfl⟩ := List.eq_nil_or_concat last |>.resolve_left hlast.1
  have hc : c ≠ '/' := fun heq => hlast.2.2.2.1 (by simp [heq])
  cases before with
  | nil => exact ⟨front, c, by simp [joined], hc⟩
  | cons b bs =>
      refine ⟨joined (b :: bs) ++ '/' :: front, c, ?_, hc⟩
      rw [List.concat_eq_append, joined_append (by simp) (by simp)]
      simp [joined]

/-! ## The stack machine on segments that are kept -/

/-- **`IsKept segment`** — the segment means something of its own: it is neither empty nor `.` nor
`..`. -/
def IsKept (segment : List Char) : Prop :=
  segment ≠ [] ∧ segment ≠ dot ∧ segment ≠ dotDot

instance : DecidablePred IsKept :=
  fun _ => inferInstanceAs (Decidable (_ ∧ _ ∧ _))

theorem IsPlain.isKept {segment : List Char} (h : IsPlain segment) : IsKept segment :=
  ⟨h.1, h.2.1, h.2.2.1⟩

theorem pushSegment_kept {absolute : Bool} {stack : List (List Char)} {segment : List Char}
    (h : IsKept segment) : pushSegment absolute stack segment = segment :: stack := by
  obtain ⟨hne, hdot, hdotDot⟩ := h
  unfold pushSegment
  have hempty : segment.isEmpty = false := by simpa using hne
  have hd : (segment == dot) = false := beq_eq_false_iff_ne.mpr hdot
  have hdd : (segment == dotDot) = false := beq_eq_false_iff_ne.mpr hdotDot
  rw [hempty, hd, hdd]
  rfl

theorem foldl_pushSegment_kept {absolute : Bool} {parts : List (List Char)}
    (h : ∀ s ∈ parts, IsKept s) (stack : List (List Char)) :
    parts.foldl (pushSegment absolute) stack = parts.reverse ++ stack := by
  induction parts generalizing stack with
  | nil => rfl
  | cons s rest ih =>
      rw [List.foldl_cons, pushSegment_kept (h s List.mem_cons_self),
        ih fun t ht => h t (List.mem_cons_of_mem s ht)]
      simp

theorem collapse_kept {absolute : Bool} {parts : List (List Char)} (h : ∀ s ∈ parts, IsKept s) :
    collapse absolute parts = parts := by
  unfold collapse
  rw [foldl_pushSegment_kept h]
  simp

theorem foldl_pushSegment_plain {absolute : Bool} {parts : List (List Char)}
    (h : ∀ s ∈ parts, IsPlain s) (stack : List (List Char)) :
    parts.foldl (pushSegment absolute) stack = parts.reverse ++ stack :=
  foldl_pushSegment_kept (fun s hs => (h s hs).isKept) stack

theorem pushSegment_dotDot {absolute : Bool} {top : List Char} {below : List (List Char)}
    (h : IsPlain top) : pushSegment absolute (top :: below) dotDot = below := by
  have htop : (top == dotDot) = false := beq_eq_false_iff_ne.mpr h.2.2.1
  show (if top == dotDot then dotDot :: top :: below else below) = below
  rw [htop]
  rfl

/-- As many `..` as there are plain segments on top take exactly those away. -/
theorem foldl_pushSegment_dotDots (absolute : Bool) {tops : List (List Char)}
    (h : ∀ s ∈ tops, IsPlain s) (below : List (List Char)) :
    (List.replicate tops.length dotDot).foldl (pushSegment absolute) (tops ++ below) = below := by
  induction tops with
  | nil => rfl
  | cons top rest ih =>
      rw [List.length_cons, List.replicate_succ, List.foldl_cons, List.cons_append,
        pushSegment_dotDot (h top List.mem_cons_self)]
      exact ih fun s hs => h s (List.mem_cons_of_mem top hs)

theorem collapse_plain {absolute : Bool} {parts : List (List Char)} (h : ∀ s ∈ parts, IsPlain s) :
    collapse absolute parts = parts :=
  collapse_kept fun s hs => (h s hs).isKept

/-- **Climbing out of directories leads back to where they begin.** -/
theorem collapse_climb (absolute : Bool) {base down target : List (List Char)}
    (hbase : ∀ s ∈ base, IsPlain s) (hdown : ∀ s ∈ down, IsPlain s)
    (htarget : ∀ s ∈ target, IsPlain s) :
    collapse absolute (base ++ down ++ (List.replicate down.length dotDot ++ target)) =
      base ++ target := by
  have hback : (List.replicate down.length dotDot).foldl (pushSegment absolute)
      (down.reverse ++ base.reverse) = base.reverse := by
    have h := foldl_pushSegment_dotDots absolute
      (fun s hs => hdown s (List.mem_reverse.mp hs)) base.reverse
    rwa [List.length_reverse] at h
  unfold collapse
  rw [List.foldl_append, List.foldl_append, List.foldl_append, foldl_pushSegment_plain hbase,
    foldl_pushSegment_plain hdown, List.append_nil, hback, foldl_pushSegment_plain htarget]
  simp

theorem collapse_dot {absolute : Bool} {base target : List (List Char)} :
    collapse absolute (base ++ dot :: target) = collapse absolute (base ++ target) := by
  unfold collapse
  rw [List.foldl_append, List.foldl_append, List.foldl_cons]
  rfl

/-- The segments that an absolute path keeps are plain, if no segment has a backslash. -/
theorem plain_of_mem_collapse {parts : List (List Char)}
    (hparts : ∀ s ∈ parts, '/' ∉ s ∧ '\\' ∉ s) : ∀ s ∈ collapse true parts, IsPlain s := by
  suffices h : ∀ stack : List (List Char), (∀ s ∈ stack, IsPlain s) →
      ∀ s ∈ parts.foldl (pushSegment true) stack, IsPlain s by
    intro s hs
    exact h [] (by simp) s (List.mem_reverse.mp hs)
  induction parts with
  | nil => intro stack hstack s hs; exact hstack s hs
  | cons segment rest ih =>
      intro stack hstack
      rw [List.foldl_cons]
      apply ih fun s hs => hparts s (List.mem_cons_of_mem segment hs)
      -- one push keeps the stack plain: it leaves it, pops it or puts the segment on it
      unfold pushSegment
      by_cases hskip : (segment.isEmpty || segment == dot) = true
      · rw [if_pos hskip]
        exact hstack
      · rw [if_neg hskip]
        by_cases hup : (segment == dotDot) = true
        · rw [if_pos hup]
          cases stack with
          | nil => intro s hs; exact absurd hs List.not_mem_nil
          | cons top below =>
              have htop : (top == dotDot) = false :=
                beq_eq_false_iff_ne.mpr (hstack top List.mem_cons_self).2.2.1
              intro s hs
              simp only [htop] at hs
              exact hstack s (List.mem_cons_of_mem top hs)
        · rw [if_neg hup]
          intro s hs
          rcases List.mem_cons.mp hs with rfl | hs
          · have hslash := hparts s List.mem_cons_self
            refine ⟨?_, ?_, ?_, hslash.1, hslash.2⟩
            · intro hnil
              exact hskip (by simp [hnil])
            · intro hdot
              exact hskip (by simp [hdot])
            · intro hdd
              exact hup (by simp [hdd])
          · exact hstack s hs

/-! ## Fronts -/

/-- **`IsFront front`** — the slashes that an absolute path keeps in front of its segments. -/
def IsFront (front : List Char) : Prop :=
  front = ['/'] ∨ front = ['/', '/']

theorem isAbsolute_front {front : List Char} (h : IsFront front) (rest : List Char) :
    isAbsolute (front ++ rest) = true := by
  rcases h with rfl | rfl
  · rfl
  · rfl

theorem isFront_anchor {path : List Char} (h : isAbsolute path = true) : IsFront (anchor path) := by
  unfold anchor
  split
  · exact Or.inl rfl
  · exact Or.inr rfl
  · exact Or.inl rfl
  · rename_i hno
    cases path with
    | nil => exact absurd h (by decide)
    | cons c rest =>
        have hc : c = '/' := by simpa [isAbsolute] using h
        exact absurd (hc ▸ rfl) (hno rest)

theorem anchor_front {front rest : List Char} (h : IsFront front) (hrest : rest.head? ≠ some '/') :
    anchor (front ++ rest) = front := by
  cases rest with
  | nil =>
      rcases h with rfl | rfl
      · rfl
      · rfl
  | cons c rest =>
      have hc : c ≠ '/' := by simpa using hrest
      rcases h with rfl | rfl
      · simp [anchor, hc]
      · simp [anchor, hc]

theorem anchor_relative {path : List Char} (h : path.head? ≠ some '/') : anchor path = [] := by
  cases path with
  | nil => rfl
  | cons c rest =>
      have hc : c ≠ '/' := by simpa using h
      simp [anchor, hc]

/-- The slashes in front of a path are empty segments, which the stack machine drops. -/
theorem collapse_segments_front {front : List Char} {parts : List (List Char)} (h : IsFront front)
    (hparts : ∀ s ∈ parts, '/' ∉ s) :
    collapse true (segments (front ++ joined parts)) = collapse true parts := by
  have hrest : collapse true (segments (joined parts)) = collapse true parts := by
    cases parts with
    | nil => rfl
    | cons s rest => rw [segments_joined (by simp) hparts]
  rw [← hrest]
  rcases h with rfl | rfl
  · rw [List.singleton_append, segments_cons_slash]
    rfl
  · rw [List.cons_append, List.singleton_append, segments_cons_slash, segments_cons_slash]
    rfl

/-- **The normal form of an absolute path** keeps the front and runs the stack machine. -/
theorem normal_front {front : List Char} {parts : List (List Char)} (h : IsFront front)
    (hparts : ∀ s ∈ parts, '/' ∉ s) (hhead : parts.head? ≠ some []) :
    normal (front ++ joined parts) = front ++ joined (collapse true parts) := by
  unfold normal assemble
  rw [isAbsolute_front h, anchor_front h (head?_joined_ne_slash hparts hhead),
    collapse_segments_front h hparts]
  rcases h with rfl | rfl
  · rfl
  · rfl

/-! ## Operations on plain paths -/

variable {front : List Char} {xs : List (List Char)}

theorem slashed_of_plain (h : IsFront front) (hxs : ∀ s ∈ xs, IsPlain s) :
    slashed (front ++ joined xs) = front ++ joined xs := by
  have hjoined : ∀ parts : List (List Char), (∀ s ∈ parts, IsPlain s) → '\\' ∉ joined parts := by
    intro parts hparts
    induction parts with
    | nil => simp [joined]
    | cons s rest ih =>
        have hs := (hparts s List.mem_cons_self).2.2.2.2
        have hrest := ih fun t ht => hparts t (List.mem_cons_of_mem s ht)
        cases rest with
        | nil => simpa [joined] using hs
        | cons t rest =>
            rw [show s :: t :: rest = [s] ++ (t :: rest) from rfl,
              joined_append (by simp) (by simp)]
            have hone : joined [s] = s := by simp [joined]
            rw [hone]
            simp only [List.mem_append, List.mem_cons, not_or]
            exact ⟨hs, by decide, hrest⟩
  apply replaceChar_of_not_mem
  rw [List.mem_append]
  rintro (hmem | hmem)
  · rcases h with rfl | rfl
    · exact absurd hmem (by decide)
    · exact absurd hmem (by decide)
  · exact hjoined xs hxs hmem

/-- **Joining appends the segments.** -/
theorem joinChars_plain {ys : List (List Char)} (h : IsFront front) (hxs : ∀ s ∈ xs, IsPlain s)
    (hys : ∀ s ∈ ys, '/' ∉ s) (hne : ys ≠ []) (hhead : ys.head? ≠ some []) :
    joinChars (front ++ joined xs) (joined ys) = front ++ joined (xs ++ ys) := by
  have hrel : isAbsolute (joined ys) = false := by
    have hno := head?_joined_ne_slash hys hhead
    unfold isAbsolute
    exact beq_eq_false_iff_ne.mpr hno
  unfold joinChars
  rw [hrel]
  by_cases hx : xs = []
  · subst hx
    rcases h with rfl | rfl
    · rfl
    · rfl
  · obtain ⟨body, c, hbody, hc⟩ := exists_last_of_plain hx hxs
    have hlast : ((front ++ joined xs).getLast? == some '/') = false := by
      rw [hbody, ← List.append_assoc, List.getLast?_concat]
      simpa using hc
    have hempty : (front ++ joined xs).isEmpty = false := by
      rcases h with rfl | rfl
      · rfl
      · rfl
    rw [hlast, hempty, joined_append hx hne]
    simp

theorem dropWhile_ne_slash {name : List Char} (hname : '/' ∉ name) (before : List Char) :
    (before ++ '/' :: name).reverse.dropWhile (· != '/') = '/' :: before.reverse := by
  have hall : ∀ c ∈ name.reverse, (c != '/') = true := by
    intro c hc
    rw [bne_iff_ne]
    intro heq
    exact hname (heq ▸ List.mem_reverse.mp hc)
  rw [List.reverse_append, List.reverse_cons, List.append_assoc,
    List.dropWhile_append_of_pos hall]
  rfl

/-- **The parent drops the last segment.** -/
theorem parentChars_plain {name : List Char} (h : IsFront front) (hxs : ∀ s ∈ xs, IsPlain s)
    (hname : '/' ∉ name) :
    parentChars (front ++ joined (xs ++ [name])) = front ++ joined xs := by
  unfold parentChars
  have hone : joined [name] = name := by simp [joined]
  by_cases hx : xs = []
  · subst hx
    rw [List.nil_append, hone]
    rcases h with rfl | rfl
    · have hhead : ((['/'] ++ name).reverse.dropWhile (· != '/')).reverse = ['/'] := by
        rw [show ['/'] ++ name = [] ++ '/' :: name from rfl, dropWhile_ne_slash hname]
        rfl
      simp only [hhead]
      rfl
    · have hhead : ((['/', '/'] ++ name).reverse.dropWhile (· != '/')).reverse = ['/', '/'] := by
        rw [show ['/', '/'] ++ name = ['/'] ++ '/' :: name from rfl, dropWhile_ne_slash hname]
        rfl
      simp only [hhead]
      rfl
  · obtain ⟨body, c, hbody, hc⟩ := exists_last_of_plain hx hxs
    have hhead : ((front ++ joined (xs ++ [name])).reverse.dropWhile (· != '/')).reverse =
        front ++ body ++ [c, '/'] := by
      rw [joined_append hx (by simp), hone, ← List.append_assoc, dropWhile_ne_slash hname, hbody]
      simp
    have hall : (front ++ body ++ [c, '/']).all (· == '/') = false := by
      simp [hc]
    have hcslash : (c == '/') = false := beq_eq_false_iff_ne.mpr hc
    simp only [hhead, hall]
    unfold trimEndBy
    simp [hcslash, hbody]

/-- An absolute path in normal form, with separators made slashes, is a front and plain segments. -/
theorem exists_plain_of_normal {path : List Char} (habs : isAbsolute path = true)
    (hnormal : normal (slashed path) = path) :
    ∃ front xs, IsFront front ∧ (∀ s ∈ xs, IsPlain s) ∧ path = front ++ joined xs := by
  have habs' : isAbsolute (slashed path) = true := by
    cases path with
    | nil => exact absurd habs (by decide)
    | cons c rest =>
        have hc : c = '/' := by simpa [isAbsolute] using habs
        subst hc
        rfl
  have hfront := isFront_anchor habs'
  refine ⟨anchor (slashed path), collapse true (segments (slashed path)), hfront, ?_, ?_⟩
  · apply plain_of_mem_collapse
    intro s hs
    refine ⟨slash_not_mem_of_mem_segments hs, fun hmem => ?_⟩
    have hin := mem_of_mem_segments hs hmem
    unfold slashed replaceChar at hin
    obtain ⟨c, -, hc⟩ := List.mem_map.mp hin
    by_cases hback : c = '\\'
    · simp [hback] at hc
    · simp [hback] at hc
  · have hempty : (anchor (slashed path)).isEmpty = false := by
      rcases hfront with h | h
      · rw [h]
        rfl
      · rw [h]
        rfl
    calc path = normal (slashed path) := hnormal.symm
      _ = anchor (slashed path) ++ joined (collapse true (segments (slashed path))) := by
        unfold normal assemble
        rw [habs', hempty]
        rfl

end SourceAtlas.Path
