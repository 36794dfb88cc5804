/-
# SourceAtlas.CommandLine.Arguments — what a command line says.

The words are taken from left to right.  A flag takes the plain words behind it that it has use
for; of a flag that is given more than once the last counts.  The first plain words that no flag
takes name the root, and nothing may be left over.
-/
import SourceAtlas.CommandLine.Word

namespace SourceAtlas.CommandLine

/-- The forms of output. -/
inductive Output where
  | text
  | mermaid
  | json
  deriving DecidableEq, Repr

/-- The name of a form of output. -/
def Output.name : Output → String
  | text => "ascii"
  | mermaid => "mermaid"
  | json => "json"

/-- What a command line says. -/
structure Arguments where
  root : String := "."
  /-- The file that the output goes to. -/
  output? : Option String := none
  format : Output := .text
  orientation : String := "LR"
  groupByFolder : Bool := false
  showAll : Bool := false
  /-- The style of the lines in a text. -/
  style : String := "tree"
  /-- The settings file. -/
  settings? : Option String := none
  includeExtensions? : Option (List String) := none
  excludeFolders? : Option (List String) := none
  mainFile? : Option String := none
  workers? : Option Int := none
  timeout? : Option Float := none
  top? : Option Int := none
  isVerbose : Bool := false
  isQuiet : Bool := false

/-- The ways a chart can run. -/
def orientations : List String := ["LR", "TD", "TB", "RL", "BT"]

/-- The styles of the lines in a text. -/
def styles : List String := ["tree", "ascii"]

/-- A value that must be one of some. -/
def oneOf (choices : List String) (value : String) : Except Refusal String :=
  if choices.contains value then .ok value else .error .misuse

/-- A value that must be there. -/
def required {α : Type} : Option α → Except Refusal α
  | some a => .ok a
  | none => .error .misuse

namespace Arguments

/-- What is said when nothing is. -/
def default : Arguments := {}

/-- Carry out a flag that takes no value. -/
def switch (arguments : Arguments) (flag : Flag) : Except Refusal Arguments :=
  match flag with
  | .help => .error .help
  | .groupByFolder => .ok { arguments with groupByFolder := true }
  | .showAll => .ok { arguments with showAll := true }
  | .verbose => .ok { arguments with isVerbose := true }
  | .quiet => .ok { arguments with isQuiet := true }
  | _ => .error .misuse

/-- Carry out a flag with its only value. -/
def setOne (arguments : Arguments) (flag : Flag) (value : String) : Except Refusal Arguments :=
  match flag with
  | .output => .ok { arguments with output? := some value }
  | .format => do
    let format ← required ([Output.text, .mermaid, .json].find? (·.name == value))
    .ok { arguments with format }
  | .orientation => do .ok { arguments with orientation := ← oneOf orientations value }
  | .style => do .ok { arguments with style := ← oneOf styles value }
  | .settings => .ok { arguments with settings? := some value }
  | .mainFile => .ok { arguments with mainFile? := some value }
  | .workers => do
    let workers ← required (Number.readInt? value.toList)
    .ok { arguments with workers? := some workers }
  | .timeout => do
    let timeout ← required (Number.readFloat? value.toList)
    .ok { arguments with timeout? := some timeout }
  | .top => do
    let top ← required (Number.readInt? value.toList)
    .ok { arguments with top? := some top }
  | _ => .error .misuse

/-- Carry out a flag that takes any number of values. -/
def setMany (arguments : Arguments) (flag : Flag) (values : List String) :
    Except Refusal Arguments :=
  match flag with
  | .includeExtensions => .ok { arguments with includeExtensions? := some values }
  | .excludeFolders => .ok { arguments with excludeFolders? := some values }
  | _ => .error .misuse

/-- Carry out a flag with the values given to it. -/
def set (arguments : Arguments) (flag : Flag) (values : List String) :
    Except Refusal Arguments :=
  match flag.arity, values with
  | .none, _ => arguments.switch flag
  | .one, [value] => arguments.setOne flag value
  | .many, _ :: _ => arguments.setMany flag values
  | _, _ => .error .misuse

/-- Carry out flags that take no value. -/
def switchAll (arguments : Arguments) (flags : List Flag) : Except Refusal Arguments :=
  flags.foldlM switch arguments

end Arguments

/-! ## Reading the words -/

/-- The values of a flag: the one that is joined to it, or as many plain words as it takes. -/
def valuesFor (flag : Flag) (joined : Option String) (words : List Word) : List String :=
  match joined, flag.arity with
  | some value, _ => [value]
  | none, .none => []
  | none, .one => (Word.takePlain words).1.take 1
  | none, .many => (Word.takePlain words).1

/-- Whether a flag can be carried out with so many values. -/
def Flag.accepts (flag : Flag) (values : List String) : Bool :=
  flag.arity == .none || !values.isEmpty

/-- What has been read of a command line. -/
structure Progress where
  arguments : Arguments
  /-- Whether the place of the root has been passed. -/
  hasRoot : Bool
  /-- Whether there was something that has no meaning. -/
  hasLeftovers : Bool

/-- Carry out the flags of one word; the plain words behind it are given, and the number of them
that were used is told. -/
def Progress.takeFlags (progress : Progress) (cluster : Cluster) (words : List Word) :
    Except Refusal (Progress × Nat) :=
  match cluster.last? with
  | none => do
    let arguments ← progress.arguments.switchAll cluster.switches
    .ok ({ progress with arguments, hasLeftovers := true }, 0)
  | some (flag, joined) =>
    let values := valuesFor flag joined words
    if flag.accepts values then do
      let arguments ← progress.arguments.switchAll cluster.switches
      let arguments ← arguments.set flag values
      .ok ({ progress with arguments }, if joined.isSome then 0 else values.length)
    else .error .misuse

/-- Take plain words, of which one may be a text: the first ones name the root, any others are left
over. -/
def Progress.takePlain (progress : Progress) (text? : Option String) : Progress :=
  if progress.hasRoot then { progress with hasLeftovers := true }
  else
    { progress with
      arguments := { progress.arguments with root := text?.getD progress.arguments.root }
      hasRoot := true }

/-- Read the words that are left. -/
def Progress.read (progress : Progress) (words : List Word) : Except Refusal Progress :=
  match words with
  | [] => .ok progress
  | .unknown :: rest => read { progress with hasLeftovers := true } rest
  | .flag flag isLetter joined :: rest =>
    match Cluster.ofFlag flag isLetter joined with
    | .error refusal => .error refusal
    | .ok cluster =>
      match progress.takeFlags cluster rest with
      | .error refusal => .error refusal
      | .ok (progress, used) => read progress (rest.drop used)
  -- a divider next to the root belongs to it and is used up with it
  | .plain text :: .divider :: rest => read (progress.takePlain (some text)) rest
  | .divider :: .plain text :: rest => read (progress.takePlain (some text)) rest
  | .plain text :: rest => read (progress.takePlain (some text)) rest
  | .divider :: rest => read (progress.takePlain none) rest
termination_by words.length
decreasing_by all_goals (simp only [List.length_cons, List.length_drop]; omega)

/-- What a command line says. -/
def Arguments.ofTexts (texts : List String) : Except Refusal Arguments := do
  let words ← Word.ofTexts texts
  let progress ← Progress.read ⟨.default, false, false⟩ words
  if progress.hasLeftovers then .error .misuse else .ok progress.arguments

end SourceAtlas.CommandLine
