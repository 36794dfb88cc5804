/-
# SourceAtlas.Proofs.Path.Stack — absolute paths as stacks of segments.

A place in a tree is the stack of the segments that lead to it, the deepest last.  The parts of a
path are read on it one after another (`readPart`): an empty part and `.` leave it as it is, `..`
takes the last segment off, and every other part is put on.  What is done to paths as texts is this
on stacks: the normal form of a path under a directory reads its parts from there
(`collapse_append`), and the parent of a directory drops the last segment (`parentChars_stackPath`).
-/
import Mathlib.Data.List.DropRight
import SourceAtlas.Proofs.Path.Key
import SourceAtlas.Proofs.Path.Tidy

namespace SourceAtlas.Path

open Text

/-- Read one part of a path from where a stack of segments leads. -/
def readPart (stack : List (List Char)) (part : List Char) : List (List Char) :=
  if part = [] ∨ part = dot then stack
  else if part = dotDot then stack.dropLast
  else stack ++ [part]

/-- The absolute path of a stack of segments. -/
def stackPath (stack : List (List Char)) : List Char :=
  '/' :: joined stack

variable {stack parts : List (List Char)}

/-! ## Reading parts -/

/-- The stack machine of the normal form reads a part, if nothing on its stack is `..`. -/
theorem reverse_pushSegment (hstack : dotDot ∉ stack) (part : List Char) :
    (pushSegment true stack part).reverse = readPart stack.reverse part ∧
      dotDot ∉ pushSegment true stack part := by
  unfold pushSegment readPart
  by_cases hskip : part = [] ∨ part = dot
  · have hskip' : (part.isEmpty || part == dot) = true := by simpa using hskip
    rw [if_pos hskip, if_pos hskip']
    exact ⟨rfl, hstack⟩
  · have hskip' : ¬ (part.isEmpty || part == dot) = true := by simpa using hskip
    rw [if_neg hskip, if_neg hskip']
    by_cases hup : part = dotDot
    · have hup' : (part == dotDot) = true := beq_iff_eq.mpr hup
      rw [if_pos hup, if_pos hup']
      cases stack with
      | nil => exact ⟨rfl, List.not_mem_nil⟩
      | cons top below =>
          have htop : (top == dotDot) = false :=
            beq_eq_false_iff_ne.mpr fun heq => hstack (heq ▸ List.mem_cons_self)
          simp only [htop]
          refine ⟨?_, fun hmem => hstack (List.mem_cons_of_mem top hmem)⟩
          rw [List.reverse_cons, List.dropLast_concat]
          rfl
    · have hup' : ¬ (part == dotDot) = true := fun h => hup (eq_of_beq h)
      rw [if_neg hup, if_neg hup', List.reverse_cons]
      exact ⟨rfl, List.not_mem_cons_of_ne_of_not_mem (fun heq => hup heq.symm) hstack⟩

theorem reverse_foldl_pushSegment (hstack : dotDot ∉ stack) (parts : List (List Char)) :
    (parts.foldl (pushSegment true) stack).reverse = parts.foldl readPart stack.reverse := by
  induction parts generalizing stack with
  | nil => rfl
  | cons part rest ih =>
      obtain ⟨hpush, hclean⟩ := reverse_pushSegment hstack part
      rw [List.foldl_cons, List.foldl_cons, ih hclean, hpush]

/-- **The normal form reads the parts of a path from the directory before them.** -/
theorem collapse_append (hstack : ∀ s ∈ stack, IsPlain s) (parts : List (List Char)) :
    collapse true (stack ++ parts) = parts.foldl readPart stack := by
  have hclean : dotDot ∉ stack.reverse := fun hmem =>
    (hstack dotDot (List.mem_reverse.mp hmem)).2.2.1 rfl
  unfold collapse
  -- the segments of the directory go on the stack as they are; what follows is read from there
  rw [List.foldl_append, foldl_pushSegment_plain hstack, List.append_nil,
    reverse_foldl_pushSegment hclean, List.reverse_reverse]

/-- What is read from plain segments is plain, if no part holds a separator. -/
theorem plain_foldl_readPart (hstack : ∀ s ∈ stack, IsPlain s)
    (hparts : ∀ s ∈ parts, '/' ∉ s ∧ '\\' ∉ s) : ∀ s ∈ parts.foldl readPart stack, IsPlain s := by
  rw [← collapse_append hstack]
  apply plain_of_mem_collapse
  exact List.forall_mem_append.mpr ⟨fun s hs => (hstack s hs).2.2.2, hparts⟩

/-- Names are put on the stack, and empty parts are passed over. -/
theorem foldl_readPart_names (hparts : ∀ s ∈ parts, s ≠ [] → IsPlain s)
    (stack : List (List Char)) :
    parts.foldl readPart stack = stack ++ parts.filter (!·.isEmpty) := by
  induction parts generalizing stack with
  | nil => simp
  | cons part rest ih =>
      have hrest := ih fun s hs => hparts s (List.mem_cons_of_mem part hs)
      rw [List.foldl_cons, hrest]
      cases part with
      | nil => rfl
      | cons c part =>
          obtain ⟨-, hdot, hdotDot, -⟩ :=
            hparts (c :: part) List.mem_cons_self (List.cons_ne_nil c part)
          have hread : readPart stack (c :: part) = stack ++ [c :: part] := by
            unfold readPart
            rw [if_neg (by simp [hdot]), if_neg hdotDot]
          rw [hread, List.filter_cons_of_pos (by rfl)]
          simp

/-! ## Paths of stacks -/

theorem segments_stackPath (hstack : ∀ s ∈ stack, '/' ∉ s) (hne : stack ≠ []) :
    segments (stackPath stack) = [] :: stack := by
  unfold stackPath
  rw [segments_cons_slash, segments_joined hne hstack]

theorem slashed_stackPath (hstack : ∀ s ∈ stack, IsPlain s) :
    slashed (stackPath stack) = stackPath stack :=
  slashed_of_plain (Or.inl rfl) hstack

theorem normal_stackPath (hstack : ∀ s ∈ stack, IsPlain s) :
    normal (stackPath stack) = stackPath stack := by
  have h := normal_front (Or.inl rfl : IsFront ['/']) (fun s hs => (hstack s hs).2.2.2.1)
    (head?_ne_nil_of_plain hstack)
  rwa [collapse_plain hstack] at h

theorem keyChars_stackPath (hstack : ∀ s ∈ stack, IsPlain s) :
    keyChars (stackPath stack) = lowerChars (stackPath stack) :=
  keyChars_plain (Or.inl rfl) hstack

/-- **The parent of a place drops its last segment**; the top is its own parent. -/
theorem parentChars_stackPath (hstack : ∀ s ∈ stack, IsPlain s) :
    parentChars (stackPath stack) = stackPath stack.dropLast := by
  rcases List.eq_nil_or_concat stack with rfl | ⟨below, last, rfl⟩
  · rfl
  · rw [List.concat_eq_append] at hstack ⊢
    rw [List.dropLast_concat]
    exact parentChars_plain (Or.inl rfl) (fun s hs => hstack s (List.mem_append_left _ hs))
      (hstack last (by simp)).2.2.2.1

/-- A path joined to a place lies under it. -/
theorem joinChars_stackPath (hstack : ∀ s ∈ stack, IsPlain s) (hparts : ∀ s ∈ parts, '/' ∉ s)
    (hne : parts ≠ []) (hhead : parts.head? ≠ some []) :
    joinChars (stackPath stack) (joined parts) = stackPath (stack ++ parts) :=
  joinChars_plain (Or.inl rfl) hstack hparts hne hhead

/-- **`IsEnding ending`** — what is put behind a segment leaves it a plain segment. -/
def IsEnding (ending : List Char) : Prop :=
  2 < ending.length ∧ '/' ∉ ending ∧ '\\' ∉ ending

instance : DecidablePred IsEnding :=
  fun _ => inferInstanceAs (Decidable (_ ∧ _ ∧ _))

theorem IsEnding.plain {ending : List Char} (h : IsEnding ending) {segment : List Char}
    (hslash : '/' ∉ segment) (hback : '\\' ∉ segment) : IsPlain (segment ++ ending) := by
  obtain ⟨hlength, hslash', hback'⟩ := h
  have hlong : 2 < (segment ++ ending).length := by
    rw [List.length_append]
    omega
  refine ⟨?_, ?_, ?_, ?_, ?_⟩
  · intro heq
    rw [heq] at hlong
    cases hlong
  · intro heq
    rw [heq] at hlong
    exact absurd hlong (by decide)
  · intro heq
    rw [heq] at hlong
    exact absurd hlong (by decide)
  · simp [hslash, hslash']
  · simp [hback, hback']

/-- The path of a place with something behind it is the path of a place. -/
theorem exists_stackPath_append (hstack : ∀ s ∈ stack, IsPlain s) {ending : List Char}
    (hending : IsEnding ending) :
    ∃ other, (∀ s ∈ other, IsPlain s) ∧ stackPath stack ++ ending = stackPath other := by
  rcases List.eq_nil_or_concat stack with rfl | ⟨below, last, rfl⟩
  · refine ⟨[ending], ?_, by simp [stackPath, joined]⟩
    intro s hs
    rw [List.mem_singleton.mp hs]
    exact hending.plain List.not_mem_nil List.not_mem_nil
  · rw [List.concat_eq_append] at hstack ⊢
    refine ⟨below ++ [last ++ ending], ?_, ?_⟩
    · intro s hs
      rcases List.mem_append.mp hs with hs | hs
      · exact hstack s (List.mem_append_left _ hs)
      · obtain ⟨-, -, -, hslash, hback⟩ := hstack last (by simp)
        rw [List.mem_singleton.mp hs]
        exact hending.plain hslash hback
    · unfold stackPath
      rw [List.cons_append, joined_concat_append]

/-! ## Roots -/

/-- **A root in normal form is the path of its segments**, if one slash stands in front of it and it
has no backslash. -/
theorem stackPath_of_normal {root : List Char} (hanchor : anchor root = ['/'])
    (hnormal : normal root = root) (hback : '\\' ∉ root) :
    (∀ s ∈ tidySegments root, IsPlain s) ∧ root = stackPath (tidySegments root) := by
  have habs : isAbsolute root = true := by
    rw [← hnormal]
    unfold normal assemble
    rw [hanchor]
    rfl
  obtain ⟨front, stack, hfront, hstack, hroot⟩ :=
    exists_plain_of_normal habs (by rw [slashed, replaceChar_of_not_mem hback, hnormal])
  have hslash : ∀ s ∈ stack, '/' ∉ s := fun s hs => (hstack s hs).2.2.2.1
  have hone : front = ['/'] := by
    rw [← hanchor, hroot,
      anchor_front hfront (head?_joined_ne_slash hslash (head?_ne_nil_of_plain hstack))]
  have htidy : tidySegments root = stack := by
    rw [hroot, hone]
    exact tidySegments_front (Or.inl rfl) fun s hs => (hstack s hs).isTidy
  rw [htidy]
  exact ⟨hstack, by rw [hroot, hone]; rfl⟩

end SourceAtlas.Path
