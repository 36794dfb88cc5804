/-
# SourceAtlas.Render.Connector — the lines that join a tree's items.

An item of a drawn tree is preceded by one mark for each level above it and by its own connector.
A level whose item was the last one leaves a space, any other a vertical line; the last item of a
parent has a connector of its own.
-/

namespace SourceAtlas.Render

/-- The four marks of a character set, each of one width. -/
structure Connectors where
  branch : String
  last : String
  vertical : String
  space : String
  deriving DecidableEq, Repr

/-- Box-drawing characters. -/
def Connectors.drawn : Connectors := ⟨"├── ", "└── ", "│   ", "    "⟩

/-- ASCII characters. -/
def Connectors.plain : Connectors := ⟨"|-- ", "\\-- ", "|   ", "    "⟩

/-- The connectors of a style; every style but the plain one is drawn. -/
def Connectors.ofStyle (style : String) : Connectors :=
  if style = "ascii" then plain else drawn

/-- The marks of the levels above an item; `true` stands for a level whose item was the last. -/
def Connectors.indent (connectors : Connectors) (levels : List Bool) : String :=
  String.join (levels.map fun isLast => if isLast then connectors.space else connectors.vertical)

/-- What precedes an item: the marks of its levels and its own connector. -/
def Connectors.lead (connectors : Connectors) (levels : List Bool) (isLast : Bool) : String :=
  connectors.indent levels ++ if isLast then connectors.last else connectors.branch

end SourceAtlas.Render
