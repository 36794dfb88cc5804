/-
# SourceAtlas.TrackedFile — the files that are analysed.

A tracked file is known by its path relative to the root, its extension and its size; once it is
known who imports whom it also carries the paths that it imports and that import it.  Sizes are
shown in megabytes with three places.
-/
import SourceAtlas.Language
import SourceAtlas.Number.Decimal
import SourceAtlas.Path

namespace SourceAtlas

/-- Why a size cannot be shown or scored. -/
inductive SizeFault where
  /-- The number is too big for a double. -/
  | tooBig
  /-- The number has no logarithm. -/
  | noLogarithm
  deriving DecidableEq, Repr

/-- A number of bytes in megabytes, rounded to three places. -/
def megabytes (bytes : Int) : Except SizeFault Float :=
  match Number.nearest? (bytes < 0) bytes.natAbs (1024 * 1024) with
  | some x => .ok (Number.roundTo 3 x)
  | none => .error .tooBig

/-- A file of the analysis. -/
structure TrackedFile where
  /-- The path relative to the root, with slashes, in its own case. -/
  path : String
  /-- The lower-case extension with its dot. -/
  extension : String
  /-- The size in bytes. -/
  size : Int
  /-- The paths that the file imports, in increasing order. -/
  imports : List String
  /-- The paths of the files that import it, in increasing order. -/
  importedBy : List String
  deriving DecidableEq, Repr

namespace TrackedFile

/-- The language of the file. -/
def language (file : TrackedFile) : Language :=
  Language.ofExtension file.extension

/-- The last part of the path. -/
def label (file : TrackedFile) : String :=
  Path.base file.path

/-- The lower-case suffix of a path. -/
def extensionOf (path : String) : String :=
  Text.lower (Path.suffix path)

end TrackedFile

end SourceAtlas
