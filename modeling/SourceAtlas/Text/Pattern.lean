/-
# SourceAtlas.Text.Pattern — patterns and their matches in a text.

A pattern is matched at a place of a text, between the character before it and the text behind it:
the start of a line, its end and the edge of a word are known by what stands on both sides.

Where a pattern can be read in several ways, the matcher tries one after the other and takes the
first way that lets everything behind the pattern match too.  A run of characters begins as long as
possible and gives characters back, or it begins as short as possible and takes more.

A search names the text between two patterns.  Its matches are taken from left to right and never
overlap.
-/
import SourceAtlas.Text.Class

namespace SourceAtlas.Text

/-- A place in a text. -/
structure Place where
  /-- The character before the place; there is none where the text begins. -/
  before : Option Char
  /-- The text behind the place. -/
  rest : List Char

/-- What a piece of text can look like. -/
inductive Pattern where
  /-- Nothing. -/
  | empty
  /-- The start of a line. -/
  | lineStart
  /-- The end of a line. -/
  | lineEnd
  /-- The start or the end of a run of word characters. -/
  | wordEdge
  /-- A character of a class. -/
  | one (allowed : Char → Bool)
  /-- Any number of characters of a class, as many as possible or as few as possible. -/
  | span (longest : Bool) (allowed : Char → Bool)
  /-- A pattern if possible, and nothing otherwise. -/
  | maybe (pattern : Pattern)
  /-- One pattern and another one behind it. -/
  | both (first second : Pattern)

namespace Pattern

/-- The characters of a word, one by one. -/
def word : List Char → Pattern
  | [] => empty
  | c :: rest => both (one (· == c)) (word rest)

/-- Any number of characters of a class, as many as possible. -/
def most (allowed : Char → Bool) : Pattern :=
  span true allowed

/-- Any number of characters of a class, as few as possible. -/
def fewest (allowed : Char → Bool) : Pattern :=
  span false allowed

/-- Characters of a class, at least one and as many as possible. -/
def atLeastOne (allowed : Char → Bool) : Pattern :=
  both (one allowed) (most allowed)

/-- Patterns one behind the other. -/
def sequence : List Pattern → Pattern
  | [] => empty
  | pattern :: rest => both pattern (sequence rest)

variable {α : Type}

/-- What comes of a run of characters of a class and of what is to be matched behind it, the longest
run first or the shortest. -/
def runSpan (longest : Bool) (allowed : Char → Bool) (next : Place → Option α)
    (before : Option Char) : List Char → Option α
  | [] => next ⟨before, []⟩
  | c :: rest =>
    if allowed c then
      if longest then (runSpan longest allowed next (some c) rest).or (next ⟨before, c :: rest⟩)
      else (next ⟨before, c :: rest⟩).or (runSpan longest allowed next (some c) rest)
    else next ⟨before, c :: rest⟩

/-- What comes of a pattern at a place and of what is to be matched behind it: the result of the
first way to read the pattern that has one. -/
def run : Pattern → Place → (Place → Option α) → Option α
  | empty, place, next => next place
  | lineStart, place, next => if place.before.all (· == '\n') then next place else none
  | lineEnd, place, next => if place.rest.head?.all (· == '\n') then next place else none
  | wordEdge, place, next =>
    if place.before.any isWord != place.rest.head?.any isWord then next place else none
  | one allowed, place, next =>
    match place.rest with
    | [] => none
    | c :: rest => if allowed c then next ⟨some c, rest⟩ else none
  | span longest allowed, place, next => runSpan longest allowed next place.before place.rest
  | maybe pattern, place, next => (pattern.run place next).or (next place)
  | both first second, place, next => first.run place fun place => second.run place next

/-- Whether the pattern can be read at a place. -/
def isAt (pattern : Pattern) (place : Place) : Bool :=
  (pattern.run place some).isSome

/-- The text behind a place up to where the pattern can be read first, or all of it. -/
def textBefore (pattern : Pattern) (before : Option Char) : List Char → List Char
  | [] => []
  | c :: rest =>
    if pattern.isAt ⟨before, c :: rest⟩ then [] else c :: textBefore pattern (some c) rest

end Pattern

/-- A search for names, which stand between a pattern before and a pattern behind. -/
structure Search where
  lead : Pattern
  name : Pattern
  tail : Pattern

namespace Search

/-- The name that is matched at a place, and the place behind the match. -/
def match? (search : Search) (place : Place) : Option (List Char × Place) :=
  search.lead.run place fun opened =>
    search.name.run opened fun closed =>
      search.tail.run closed fun finish =>
        some (opened.rest.take (opened.rest.length - closed.rest.length), finish)

/-- The names that are matched in a text, in order.  A match of no characters does not count. -/
def names (search : Search) (before : Option Char) : List Char → List (List Char)
  | [] => []
  | c :: rest =>
    match search.match? ⟨before, c :: rest⟩ with
    | some (name, finish) =>
      if finish.rest.length ≤ rest.length then name :: names search finish.before finish.rest
      else names search (some c) rest
    | none => names search (some c) rest
termination_by text => text.length
decreasing_by
  · simp only [List.length_cons]
    omega
  · simp
  · simp

end Search

end SourceAtlas.Text
