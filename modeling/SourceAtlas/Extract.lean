/-
# SourceAtlas.Extract — the specifiers that a file's text imports.

Extraction is lexical: it recognises the written forms of import statements and knows nothing of
strings, comments or computed names around them.
-/
import SourceAtlas.Extract.Dotted
import SourceAtlas.Extract.Quoted
import SourceAtlas.Language
import SourceAtlas.OrderedSet

namespace SourceAtlas

/-- The specifiers of a text in the grammar of a language. -/
def specifiersOf (language : Language) (text : List Char) : NameSet :=
  OrderedSet.ofList <| List.map String.ofList <|
    match language with
    | .ecmascript => Extract.quotedSpecifiers text
    | .python => Extract.dottedSpecifiers text
    | .none => []

end SourceAtlas
