/-
# SourceAtlas.Language — which import grammar a file is read with.

The extension decides.  Two families have a grammar; every other file is tracked but never read.
-/
import SourceAtlas.Text.Case
import SourceAtlas.Text.Piece

namespace SourceAtlas

/-- The import grammar of a file. -/
inductive Language where
  | ecmascript
  | python
  | none
  deriving DecidableEq, Repr

namespace Language

/-- The extensions of ECMAScript files, in the order in which resolution tries them. -/
def ecmascriptExtensions : List String := [".ts", ".tsx", ".js", ".jsx", ".mjs", ".cjs"]

/-- The extensions of Python files, in the order in which resolution tries them. -/
def pythonExtensions : List String := [".py", ".pyw"]

/-- The language of an extension, which may be given in any case and without its dot. -/
def ofExtension (extension : String) : Language :=
  let lowered := Text.lower extension
  let dotted := if lowered.isEmpty || Text.beginsWith '.' lowered then lowered else "." ++ lowered
  if dotted ∈ ecmascriptExtensions then ecmascript
  else if dotted ∈ pythonExtensions then python
  else none

end Language

end SourceAtlas
