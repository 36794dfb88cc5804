/-
# SourceAtlas.Settings.Yaml — reading YAML.

YAML 1.1, one document to a text: tokens, then nodes, then values.  The values are made level by
level, the outermost first, so that of two faults the one nearer to the root is told.  A mapping
under the key `<<` gives its entries to the mapping that it stands in, where entries of that
mapping's own win.
-/
import SourceAtlas.Settings.Yaml.Node

namespace SourceAtlas.Settings.Yaml

/-! ## Nodes seen through aliases -/

namespace Node

/-- The node that a node is or refers to. -/
def resolved (anchors : Anchors) : Node → Node
  | reference name => ((anchors.find? (·.1 == name)).map (·.2)).getD empty
  | anchored _ node => node
  | node => node

/-- The name under which a node is known. -/
def name? : Node → Option String
  | reference name => some name
  | anchored name _ => some name
  | _ => none

/-- The tag of a node. -/
def tag (anchors : Anchors) (node : Node) : Tag :=
  match node.resolved anchors with
  | scalar tag _ => tag
  | list tag _ => tag
  | mapping tag _ => tag
  | _ => .unknown

/-- The entries of a node that is a mapping. -/
def entries? (anchors : Anchors) (node : Node) : Option (List (Node × Node)) :=
  match node.resolved anchors with
  | mapping _ entries => some entries
  | _ => none

/-- The text of a node: a mapping may name it under its default key. -/
def text? (anchors : Anchors) : Nat → Node → Option String
  | 0, _ => none
  | fuel + 1, node =>
    match node.resolved anchors with
    | scalar _ text => some text
    | mapping _ entries => do
      let (_, v) ← entries.find? fun entry => entry.1.tag anchors == .default
      text? anchors fuel v
    | _ => none

/-! ## Merging -/

/-- The entries of a mapping with those that are merged in before its own.  Of several mappings
merged in under one key the first wins; what a mapping merges into itself is passed over. -/
def merged (anchors : Anchors) : Nat → List String → List (Node × Node) →
    Except ReadFault (List (Node × Node))
  | 0, _, entries => .ok entries
  | fuel + 1, within, entries => do
    let sourceOf (node : Node) : Except ReadFault (List (Node × Node)) :=
      match node.entries? anchors with
      | none => .error .malformed
      | some inner =>
        match node.name? with
        | none => merged anchors fuel within inner
        | some name =>
          if within.contains name then .ok [] else merged anchors fuel (name :: within) inner
    let isMerge (entry : Node × Node) : Bool := entry.1.tag anchors == .merge
    let sources ← (entries.filter isMerge).mapM fun (_, v) =>
      match v.resolved anchors with
      | list _ items => (items.mapM sourceOf).map fun found => found.reverse.flatten
      | _ => sourceOf v
    let own := (entries.filter (!isMerge ·)).map fun (k, v) =>
      match k.resolved anchors with
      | scalar .default text => (scalar .text text, v)
      | _ => (k, v)
    .ok (sources.flatten ++ own)

end Node

/-! ## Values -/

/-- A value, and the first fault met in making it with its depth below the value. -/
structure Built where
  value : Value
  fault? : Option (Nat × ReadFault)

namespace Built

/-- The earlier of two faults: the one at the lesser depth, or the first at one depth. -/
def earlier (a b : Option (Nat × ReadFault)) : Option (Nat × ReadFault) :=
  match a, b with
  | none, _ => b
  | _, none => a
  | some (m, f), some (n, g) => if n < m then some (n, g) else some (m, f)

/-- The earliest of the faults. -/
def earliest (faults : List (Option (Nat × ReadFault))) : Option (Nat × ReadFault) :=
  faults.foldl earlier none

/-- A fault seen from one level above. -/
def below (fault : Option (Nat × ReadFault)) : Option (Nat × ReadFault) :=
  fault.map fun (depth, f) => (depth + 1, f)

/-- What could not be made. -/
def failed (depth : Nat) (fault : ReadFault) : Built :=
  ⟨.null, some (depth, fault)⟩

/-- The fault of a key and its value: keys must have an identity. -/
def entryFault (key value : Built) : Option (Nat × ReadFault) :=
  earliest [key.fault?, if key.value.isKey then none else some (0, .malformed), value.fault?]

end Built

/-- Whether the values of a tag hold others. -/
def Tag.holdsOthers (tag : Tag) : Bool :=
  tag == .list || tag == .pairs || tag == .set || tag == .mapping

namespace Built

/-- The fault of a node that is not of the kind that its tag says: it shows in reading the node or,
for tags of values that hold others, in reading what the node holds. -/
def mismatch (tag : Tag) : Built :=
  failed (if tag.holdsOthers then 1 else 0) .malformed

/-- The value of a text under a tag. -/
def ofScalar (tag : Tag) (text : String) : Built :=
  if tag.holdsOthers then mismatch tag
  else
    match tag.valueOf text.toList with
    | .ok value => ⟨value, none⟩
    | .error fault => failed 0 fault

/-- A list of values. -/
def ofItems (items : List Built) : Built :=
  ⟨.list (items.map (·.value)), below (earliest (items.map (·.fault?)))⟩

/-- A key and its value, as one value. -/
def ofPair (pair : Built × Built) : Built :=
  ⟨.tuple [pair.1.value, pair.2.value], earlier pair.1.fault? pair.2.fault?⟩

/-- A mapping, or the set of its keys. -/
def ofEntries (tag : Tag) (entries : List (Built × Built)) : Built :=
  let pairs := entries.map fun (k, v) => (k.value, v.value)
  ⟨if tag == .set then .ofKeys (pairs.map (·.1)) else .ofEntries pairs,
    below (earliest (entries.map fun (k, v) => entryFault k v))⟩

/-- What stands for a node that comes round to itself again: a value with nothing in it. -/
def hollow (anchors : Node.Anchors) (node : Node) : Built :=
  match node.tag anchors with
  | .mapping => ⟨.mapping [], none⟩
  | .set => ⟨.set [], none⟩
  | _ => ⟨.list [], none⟩

end Built

/-- The values of the anchored nodes made so far. -/
abbrev Memory := List (String × Built)

namespace Node

/-- The value of a node, made once for every anchor; `within` are the anchors that the node stands
in.  A node that holds itself is followed once around. -/
def build (anchors : Anchors) : Nat → List String → Node → StateM Memory Built
  | 0, _, _ => return .failed 0 .malformed
  | fuel + 1, within, node =>
    let inner (node : Node) : StateM Memory Built := build anchors fuel within node
    let entry (entry : Node × Node) : StateM Memory (Built × Built) := do
      let k ← inner entry.1
      let v ← inner entry.2
      return (k, v)
    let shared (name : String) : StateM Memory Built := do
      match (← get).find? (·.1 == name) with
      | some (_, built) => return built
      | none =>
        if 1 < within.count name then return .hollow anchors node
        else
          let built ← build anchors fuel (name :: within) (node.resolved anchors)
          modify ((name, built) :: ·)
          return built
    match node with
    | reference name => shared name
    | anchored name _ => shared name
    | scalar tag text => return .ofScalar tag text
    | list tag items =>
      match tag with
      | .list => do return .ofItems (← items.mapM inner)
      | .pairs => do
        let pairs ← items.mapM fun item =>
          match item.entries? anchors with
          | some [single] => do return .ofPair (← entry single)
          | _ => return .failed 0 .malformed
        return .ofItems pairs
      | _ => return .mismatch tag
    | mapping tag entries =>
      if tag == .mapping || tag == .set then
        match merged anchors fuel [] entries with
        | .error fault => return .failed 1 fault
        | .ok entries => do return .ofEntries tag (← entries.mapM entry)
      else
        match text? anchors fuel node with
        | some text => return .ofScalar tag text
        | none => return .mismatch tag

end Node

/-! ## Texts -/

/-- Read a whole text; a text without a document is null. -/
def read (text : List Char) : Except ReadFault Value := do
  let tokens ← Token.ofText text
  match ← Node.ofTokens? tokens with
  | none => return .null
  | some node =>
    match node.anchors? [] with
    | none => .error .malformed
    | some anchors =>
      let (built, _) := (node.build anchors (4 * tokens.length + 4) []).run []
      match built.fault? with
      | some (_, fault) => .error fault
      | none => return built.value

end SourceAtlas.Settings.Yaml
