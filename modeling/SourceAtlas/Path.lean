/-
# SourceAtlas.Path — paths as text.

Paths are judged by their text alone; no link is followed.  The normal form drops empty and `.`
segments and lets every `..` take the segment before it away; the tidy form drops empty and `.`
segments only.  One leading slash makes a path absolute, exactly two are kept as two, and more
count as one.  The key of a path is the lower-case form of its normal form, after backslashes have
become slashes: two spellings name the same file when their keys are equal.
-/
import SourceAtlas.Text.Case
import SourceAtlas.Text.Piece

namespace SourceAtlas.Path

open Text

/-! ## Segments -/

/-- The segment that stands for the directory itself. -/
def dot : List Char := ['.']

/-- The segment that stands for the directory above. -/
def dotDot : List Char := ['.', '.']

/-- A path with slashes for backslashes. -/
def slashed (path : List Char) : List Char :=
  replaceChar '\\' '/' path

/-- The text between the slashes of a path. -/
def segments (path : List Char) : List (List Char) :=
  pieces (· == '/') path

/-- Segments with slashes between them. -/
def joined (parts : List (List Char)) : List Char :=
  List.intercalate ['/'] parts

/-- The slashes that a path keeps in front: none, one, or two when there are exactly two. -/
def anchor : List Char → List Char
  | '/' :: '/' :: '/' :: _ => ['/']
  | '/' :: '/' :: _ => ['/', '/']
  | '/' :: _ => ['/']
  | _ => []

/-- Whether a path starts at the root. -/
def isAbsolute (path : List Char) : Bool :=
  path.head? == some '/'

/-- A path from its anchor and its segments; nothing at all is the directory itself. -/
def assemble (front : List Char) (parts : List (List Char)) : List Char :=
  if front.isEmpty && parts.isEmpty then dot else front ++ joined parts

/-! ## Normal and tidy form -/

/-- Put a segment on a stack of segments whose top is the last one: `..` takes the top away; where
there is nothing to take, it stays in a relative path and is lost in an absolute one. -/
def pushSegment (absolute : Bool) (stack : List (List Char)) (segment : List Char) :
    List (List Char) :=
  if segment.isEmpty || segment == dot then stack
  else if segment == dotDot then
    match stack with
    | [] => if absolute then [] else [dotDot]
    | top :: below => if top == dotDot then dotDot :: stack else below
  else segment :: stack

/-- The segments that are left of a path. -/
def collapse (absolute : Bool) (parts : List (List Char)) : List (List Char) :=
  (parts.foldl (pushSegment absolute) []).reverse

/-- The normal form of a path. -/
def normal (path : List Char) : List Char :=
  assemble (anchor path) (collapse (isAbsolute path) (segments path))

/-- The segments of a path other than empty and `.` ones. -/
def tidySegments (path : List Char) : List (List Char) :=
  (segments path).filter fun segment => !segment.isEmpty && segment != dot

/-- The tidy form of a path, in which `..` stays. -/
def tidy (path : List Char) : List Char :=
  assemble (anchor path) (tidySegments path)

/-- The key of a path. -/
def keyChars (path : List Char) : List Char :=
  lowerChars (normal (slashed path))

/-! ## Parts of a path -/

/-- The text after the last slash. -/
def baseChars (path : List Char) : List Char :=
  (path.reverse.takeWhile (· != '/')).reverse

/-- The text before the last slash, without slashes at its end unless it holds nothing else. -/
def parentChars (path : List Char) : List Char :=
  let head := (path.reverse.dropWhile (· != '/')).reverse
  if head.all (· == '/') then head else trimEndBy (· == '/') head

/-- One path under another; an absolute one stands for itself. -/
def joinChars (base path : List Char) : List Char :=
  if isAbsolute path then path
  else if base.isEmpty || base.getLast? == some '/' then base ++ path
  else base ++ '/' :: path

/-- The last segment of a path, empty if there is none. -/
def nameChars (path : List Char) : List Char :=
  (tidySegments path).getLastD []

/-- The suffix of a name: from its last dot on, unless that dot is its first or last character. -/
def suffixOfName (name : List Char) : List Char :=
  let after := (name.reverse.takeWhile (· != '.')).reverse
  let before := name.length - after.length
  if after.isEmpty || before ≤ 1 then [] else '.' :: after

/-! ## Strings -/

/-- The key of a path: two paths with one key name the same file. -/
def key (path : String) : String :=
  String.ofList (keyChars path.toList)

/-- The tidy form of a path. -/
def tidied (path : String) : String :=
  String.ofList (tidy path.toList)

/-- The last segment of a path, empty if there is none. -/
def name (path : String) : String :=
  String.ofList (nameChars path.toList)

/-- The text after the last slash of a path. -/
def base (path : String) : String :=
  String.ofList (baseChars path.toList)

/-- The suffix of a path's last segment. -/
def suffix (path : String) : String :=
  String.ofList (suffixOfName (nameChars path.toList))

/-- One path under another. -/
def join (base path : String) : String :=
  String.ofList (joinChars base.toList path.toList)

/-- A path with slashes for backslashes. -/
def withSlashes (path : String) : String :=
  String.ofList (slashed path.toList)

/-! ## From one place to another -/

/-- The segments of a path that is read from a current directory, in normal form. -/
def absoluteSegments (current path : List Char) : List (List Char) :=
  collapse true (segments (joinChars current path))

/-- What is left of two lists after their common beginning. -/
def dropCommon : List (List Char) → List (List Char) → List (List Char) × List (List Char)
  | a :: as, b :: bs => if a == b then dropCommon as bs else (a :: as, b :: bs)
  | as, bs => (as, bs)

/-- A path relative to a root, if it lies under it; otherwise the path itself with slashes.  Both
are read from the current directory. -/
def relativeTo (current root path : String) : String :=
  if path.isEmpty then ""
  else
    match dropCommon (absoluteSegments current.toList root.toList)
      (absoluteSegments current.toList path.toList) with
    | ([], below) => String.ofList (assemble [] below)
    | (_ :: _, _) => withSlashes path

end SourceAtlas.Path
