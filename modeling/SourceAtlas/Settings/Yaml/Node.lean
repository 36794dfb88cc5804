/-
# SourceAtlas.Settings.Yaml.Node — the nodes of a YAML document.

The grammar of tokens.  A node is a text, a list or a mapping, each with its tag, or refers to a
node before it by the name of an anchor.  Where a node may be left out, the empty text stands for
it.
-/
import SourceAtlas.Settings.Yaml.Tag
import SourceAtlas.Settings.Yaml.Token

namespace SourceAtlas.Settings.Yaml

/-- A node. -/
inductive Node where
  | scalar (tag : Tag) (text : String)
  | list (tag : Tag) (items : List Node)
  | mapping (tag : Tag) (entries : List (Node × Node))
  /-- A node that can be referred to by name. -/
  | anchored (name : String) (node : Node)
  /-- A reference to an anchored node. -/
  | reference (name : String)
  deriving Inhabited

namespace Node

/-- The node that stands for one that was left out. -/
def empty : Node := scalar .null ""

/-! ## Anchors and tags in front of a node -/

/-- The handles of tags, with what they stand for. -/
abbrev Handles := List (String × String)

/-- What is written in front of a node. -/
structure Properties where
  anchor? : Option String
  /-- The full name of the tag; a lone exclamation mark is one that says nothing. -/
  tag? : Option String

/-- The full name of a tag. -/
def tagName (handles : Handles) (handle : Option String) (suffix : String) :
    Except ReadFault String :=
  match handle with
  | none => .ok suffix
  | some handle =>
    match handles.find? (·.1 == handle) with
    | some (_, meaning) => .ok (meaning ++ suffix)
    | none => .error .malformed

/-- The anchor and the tag in front of a node, in either order. -/
def properties (handles : Handles) (tokens : List Token) :
    Except ReadFault (Properties × List Token) :=
  match tokens with
  | .anchor name :: .tag handle suffix :: rest =>
    (tagName handles handle suffix).map fun tag => (⟨some name, some tag⟩, rest)
  | .anchor name :: rest => .ok (⟨some name, none⟩, rest)
  | .tag handle suffix :: rest => do
    let tag ← tagName handles handle suffix
    match rest with
    | .anchor name :: rest => .ok (⟨some name, some tag⟩, rest)
    | _ => .ok (⟨none, some tag⟩, rest)
  | _ => .ok (⟨none, none⟩, tokens)

namespace Properties

/-- Whether there is nothing in front of the node. -/
def isNone (properties : Properties) : Bool :=
  properties.anchor?.isNone && properties.tag?.isNone

/-- The tag of the node, with what is taken if none is said. -/
def tagOr (properties : Properties) (otherwise : Tag) : Tag :=
  match properties.tag? with
  | none => otherwise
  | some name => if name == "!" then otherwise else Tag.ofName name

/-- The tag of a text; a tag that says nothing makes it count as plain. -/
def scalarTag (properties : Properties) (isPlain : Bool) (text : String) : Tag :=
  properties.tagOr <|
    if isPlain || properties.tag?.isSome then Tag.ofPlain text.toList else .text

/-- The node under its anchor, if it has one. -/
def attach (properties : Properties) (node : Node) : Node :=
  match properties.anchor? with
  | some name => anchored name node
  | none => node

end Properties

/-! ## The grammar -/

/-- Where a node stands, which decides what it can be. -/
inductive Context where
  /-- Within brackets. -/
  | flow
  | block
  /-- In a mapping, where the dashes of a list may stand right below the key. -/
  | entry
  deriving DecidableEq, Repr

/-- Whether the next token shows that the node in front of it was left out. -/
def isOmitted (enders : List Token) (tokens : List Token) : Bool :=
  tokens.head?.any enders.contains

/-- The tokens behind the comma that stands in front of every part but the first. -/
def afterComma (isFirst : Bool) (tokens : List Token) : Except ReadFault (List Token) :=
  match isFirst, tokens with
  | true, _ => .ok tokens
  | false, .comma :: rest => .ok rest
  | false, _ => .error .malformed

mutual

/-- A node. -/
def parse (handles : Handles) (context : Context) (fuel : Nat) (tokens : List Token) :
    Except ReadFault (Node × List Token) :=
  match fuel, tokens with
  | 0, _ => .error .malformed
  | _, .reference name :: rest => .ok (reference name, rest)
  | fuel + 1, _ => do
    let (props, rest) ← properties handles tokens
    let done (node : Node) (tail : List Token) : Except ReadFault (Node × List Token) :=
      .ok (props.attach node, tail)
    let inBlock := context != .flow
    match rest with
    | .scalar isPlain text :: tail =>
      done (scalar (props.scalarTag isPlain text) text) tail
    | .flowList :: tail =>
      let (items, tail) ← flowItems handles fuel true tail
      done (list (props.tagOr .list) items) tail
    | .flowMapping :: tail =>
      let (entries, tail) ← flowEntries handles fuel true tail
      done (mapping (props.tagOr .mapping) entries) tail
    | token :: tail =>
      if token == .dash && context == .entry then
        let (items, tail) ← looseItems handles fuel rest
        done (list (props.tagOr .list) items) tail
      else if token == .blockList && inBlock then
        let (items, tail) ← blockItems handles fuel tail
        done (list (props.tagOr .list) items) tail
      else if token == .blockMapping && inBlock then
        let (entries, tail) ← blockEntries handles fuel tail
        done (mapping (props.tagOr .mapping) entries) tail
      else if props.isNone then .error .malformed
      else done (scalar (props.scalarTag true "") "") rest
    | [] =>
      if props.isNone then .error .malformed
      else done (scalar (props.scalarTag true "") "") []

/-- A node, or the empty one if one of some tokens comes first. -/
def parseUnless (handles : Handles) (context : Context) (enders : List Token) (fuel : Nat)
    (tokens : List Token) : Except ReadFault (Node × List Token) :=
  match fuel with
  | 0 => .error .malformed
  | fuel + 1 =>
    if isOmitted enders tokens then .ok (empty, tokens) else parse handles context fuel tokens

/-- The elements of an indented list, up to its end. -/
def blockItems (handles : Handles) (fuel : Nat) (tokens : List Token) :
    Except ReadFault (List Node × List Token) :=
  match fuel, tokens with
  | fuel + 1, .dash :: rest => do
    let (item, rest) ← parseUnless handles .block [.dash, .blockClose] fuel rest
    let (items, rest) ← blockItems handles fuel rest
    .ok (item :: items, rest)
  | _ + 1, .blockClose :: rest => .ok ([], rest)
  | _, _ => .error .malformed

/-- The elements of a list that is not indented. -/
def looseItems (handles : Handles) (fuel : Nat) (tokens : List Token) :
    Except ReadFault (List Node × List Token) :=
  match fuel, tokens with
  | 0, _ => .error .malformed
  | fuel + 1, .dash :: rest => do
    let (item, rest) ←
      parseUnless handles .block [.dash, .key, .value, .blockClose] fuel rest
    let (items, rest) ← looseItems handles fuel rest
    .ok (item :: items, rest)
  | _, _ => .ok ([], tokens)

/-- A value behind its colon; without a colon it is empty. -/
def parseValue (handles : Handles) (context : Context) (enders : List Token) (fuel : Nat)
    (tokens : List Token) : Except ReadFault (Node × List Token) :=
  match fuel, tokens with
  | 0, _ => .error .malformed
  | fuel + 1, .value :: rest => parseUnless handles context enders fuel rest
  | _, _ => .ok (empty, tokens)

/-- The entries of an indented mapping, up to its end. -/
def blockEntries (handles : Handles) (fuel : Nat) (tokens : List Token) :
    Except ReadFault (List (Node × Node) × List Token) :=
  match fuel, tokens with
  | _ + 1, .blockClose :: rest => .ok ([], rest)
  | fuel + 1, .key :: rest => do
    let enders := [.key, .value, .blockClose]
    let (k, rest) ← parseUnless handles .entry enders fuel rest
    let (v, rest) ← parseValue handles .entry enders fuel rest
    let (entries, rest) ← blockEntries handles fuel rest
    .ok ((k, v) :: entries, rest)
  | _, _ => .error .malformed

/-- The elements of a list in brackets, up to the closing one; a pair of a key and a value is a
mapping of its own. -/
def flowItems (handles : Handles) (fuel : Nat) (isFirst : Bool) (tokens : List Token) :
    Except ReadFault (List Node × List Token) :=
  match fuel, tokens with
  | 0, _ => .error .malformed
  | _ + 1, .flowListClose :: rest => .ok ([], rest)
  | fuel + 1, _ => do
    let rest ← afterComma isFirst tokens
    match rest with
    | .flowListClose :: rest => .ok ([], rest)
    | .key :: rest =>
      let (k, rest) ← parseUnless handles .flow [.value, .comma, .flowListClose] fuel rest
      let (v, rest) ← parseValue handles .flow [.comma, .flowListClose] fuel rest
      let (items, rest) ← flowItems handles fuel false rest
      .ok (mapping .mapping [(k, v)] :: items, rest)
    | _ =>
      let (item, rest) ← parse handles .flow fuel rest
      let (items, rest) ← flowItems handles fuel false rest
      .ok (item :: items, rest)

/-- The entries of a mapping in braces, up to the closing one. -/
def flowEntries (handles : Handles) (fuel : Nat) (isFirst : Bool) (tokens : List Token) :
    Except ReadFault (List (Node × Node) × List Token) :=
  match fuel, tokens with
  | 0, _ => .error .malformed
  | _ + 1, .flowMappingClose :: rest => .ok ([], rest)
  | fuel + 1, _ => do
    let rest ← afterComma isFirst tokens
    match rest with
    | .flowMappingClose :: rest => .ok ([], rest)
    | .key :: rest =>
      let (k, rest) ← parseUnless handles .flow [.value, .comma, .flowMappingClose] fuel rest
      let (v, rest) ← parseValue handles .flow [.comma, .flowMappingClose] fuel rest
      let (entries, rest) ← flowEntries handles fuel false rest
      .ok ((k, v) :: entries, rest)
    | _ =>
      let (k, rest) ← parse handles .flow fuel rest
      let (entries, rest) ← flowEntries handles fuel false rest
      .ok ((k, empty) :: entries, rest)

end

/-! ## Documents -/

/-- The handles that directives give meanings to, on top of the common ones.  A handle has one
meaning, and the version of the format must be 1. -/
def handlesOf (directives : List Directive) : Except ReadFault Handles :=
  let versions := directives.filterMap fun
    | .version major => some major
    | _ => none
  let handles := directives.filterMap fun
    | .handle name meaning => some (name, meaning)
    | _ => none
  let names := handles.map (·.1)
  if versions.length ≤ 1 && versions.all (· == 1) && names.eraseDups == names then
    .ok (handles ++ [("!", "!"), ("!!", Tag.commonStart)])
  else .error .malformed

/-- The directives in front of a document, and the tokens behind them. -/
def takeDirectives : List Token → List Directive × List Token
  | .directive d :: rest => (d :: (takeDirectives rest).1, (takeDirectives rest).2)
  | tokens => ([], tokens)

/-- Whether a document that has been opened is left empty. -/
def isContentOmitted : List Token → Bool
  | [] => true
  | .directive _ :: _ => true
  | .documentStart :: _ => true
  | .documentEnd :: _ => true
  | _ => false

/-- The node of the only document of a text, if there is any. -/
def ofTokens? (tokens : List Token) : Except ReadFault (Option Node) := do
  if tokens.isEmpty then return none
  let fuel := 4 * tokens.length + 4
  let (directives, body) := takeDirectives tokens
  let handles ← handlesOf directives
  let (node, rest) ←
    match body with
    | .documentStart :: content =>
      if isContentOmitted content then .ok (empty, content)
      else parse handles .block fuel content
    | _ => if directives.isEmpty then parse handles .block fuel body else .error .malformed
  if (rest.dropWhile (· == .documentEnd)).isEmpty then .ok (some node) else .error .malformed

/-! ## Anchors -/

/-- Anchored nodes by their names. -/
abbrev Anchors := List (String × Node)

mutual

/-- The anchors of a node on top of those before it, if every anchor is new and every alias
refers to one before it. -/
def anchors? (before : Anchors) (node : Node) : Option Anchors :=
  match node with
  | scalar _ _ => some before
  | list _ items => anchorsOfItems? before items
  | mapping _ entries => anchorsOfEntries? before entries
  | anchored name node =>
    if before.any (·.1 == name) then none else anchors? ((name, node) :: before) node
  | reference name => if before.any (·.1 == name) then some before else none

/-- The anchors of the elements of a list. -/
def anchorsOfItems? (before : Anchors) (items : List Node) : Option Anchors :=
  match items with
  | [] => some before
  | item :: items => do anchorsOfItems? (← anchors? before item) items

/-- The anchors of the entries of a mapping. -/
def anchorsOfEntries? (before : Anchors) (entries : List (Node × Node)) : Option Anchors :=
  match entries with
  | [] => some before
  | (k, v) :: entries => do anchorsOfEntries? (← anchors? (← anchors? before k) v) entries

end

end Node

end SourceAtlas.Settings.Yaml
