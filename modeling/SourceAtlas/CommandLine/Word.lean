/-
# SourceAtlas.CommandLine.Word — the words of a command line.

A word is a flag if it begins with a dash, unless it is a dash alone, a negative number, or holds a
space and names no flag.  Two dashes alone divide: all words behind them are plain.  A value may be
joined to its flag, and letters may be joined behind one dash.
-/
import SourceAtlas.CommandLine.Flag
import SourceAtlas.Number.Reading

namespace SourceAtlas.CommandLine

/-- Why a command line is not carried out. -/
inductive Refusal where
  /-- Help was asked for. -/
  | help
  /-- The command line makes no sense. -/
  | misuse
  deriving DecidableEq, Repr

/-- The number that the program ends with. -/
def Refusal.exitCode : Refusal → Nat
  | help => 0
  | misuse => 2

/-- What is joined to a flag in one word. -/
structure Joined where
  /-- Whether an equals sign stands between. -/
  hasSign : Bool
  text : List Char
  deriving DecidableEq, Repr

/-- A word of the command line. -/
inductive Word where
  | plain (text : String)
  | divider
  | flag (flag : Flag) (isLetter : Bool) (joined : Option Joined)
  /-- A word that looks like a flag and is none. -/
  | unknown
  deriving DecidableEq, Repr

/-- Whether a text is a negative number without an exponent. -/
def isNegativeNumber (text : List Char) : Bool :=
  match text with
  | '-' :: body =>
    let (whole, rest) := Number.takeDigits body
    let isEnd (tail : List Char) : Bool := tail.isEmpty || tail == ['\n']
    match rest with
    | '.' :: more =>
      let (places, tail) := Number.takeDigits more
      !places.isEmpty && isEnd tail
    | _ => !whole.isEmpty && isEnd rest
  | _ => false

namespace Word

/-- A word that names no flag. -/
def ofOther (text : List Char) : Word :=
  if isNegativeNumber text || text.contains ' ' then plain (String.ofList text) else unknown

/-- A word behind two dashes. -/
def ofName (body : List Char) : Except Refusal Word :=
  let front := body.takeWhile (· != '=')
  let joined :=
    match body.dropWhile (· != '=') with
    | '=' :: text => some ⟨true, text⟩
    | _ => none
  match Flag.named front with
  | [] => .ok (ofOther ('-' :: '-' :: body))
  | [found] => .ok (flag found false joined)
  | _ => .error .misuse

/-- A word behind one dash. -/
def ofLetters (c : Char) (rest : List Char) : Word :=
  match Flag.ofLetter? c, rest with
  | none, _ => ofOther ('-' :: c :: rest)
  | some found, [] => flag found true none
  | some found, '=' :: text => flag found true (some ⟨true, text⟩)
  | some found, _ => flag found true (some ⟨false, rest⟩)

/-- A word that stands in front of the divider. -/
def ofText (text : String) : Except Refusal Word :=
  match text.toList with
  | '-' :: '-' :: body => ofName body
  | '-' :: c :: rest => .ok (ofLetters c rest)
  | _ => .ok (plain text)

/-- The words of a command line. -/
def ofTexts : List String → Except Refusal (List Word)
  | [] => .ok []
  | text :: rest =>
    if text = "--" then .ok (divider :: rest.map plain)
    else do
      let word ← ofText text
      let words ← ofTexts rest
      .ok (word :: words)

/-- The plain words at the head, and what follows them. -/
def takePlain : List Word → List String × List Word
  | plain text :: rest => (text :: (takePlain rest).1, (takePlain rest).2)
  | words => ([], words)

end Word

/-! ## Letters joined behind one dash -/

/-- What one word with flags means. -/
structure Cluster where
  /-- The flags that take no value here, in order. -/
  switches : List Flag
  /-- The last flag, with the value that is joined to it; nothing if its letter is unknown. -/
  last? : Option (Flag × Option String)
  deriving DecidableEq, Repr

/-- Put a flag in front of a cluster. -/
def Cluster.cons (flag : Flag) (cluster : Cluster) : Cluster :=
  { cluster with switches := flag :: cluster.switches }

/-- The flags behind one that has something joined to it.  What is joined to a flag without values
is the letters of further flags, which no name and no equals sign may have in front. -/
def Cluster.ofJoined (flag : Flag) (isLetter hasSign : Bool) (text : List Char) :
    Except Refusal Cluster :=
  if flag.arity != .none then .ok ⟨[], some (flag, some (String.ofList text))⟩
  else
    match text with
    | [] => .error .misuse
    | c :: rest =>
      if !isLetter || hasSign || c == '-' then .error .misuse
      else
        match Flag.ofLetter? c, rest with
        | none, _ => .ok ⟨[flag], none⟩
        | some next, [] => .ok ⟨[flag], some (next, none)⟩
        | some next, d :: more =>
          (if d == '=' then ofJoined next true true more
            else ofJoined next true false (d :: more)).map (cons flag)
termination_by text.length

/-- The flags of a word. -/
def Cluster.ofFlag (flag : Flag) (isLetter : Bool) (joined : Option Joined) :
    Except Refusal Cluster :=
  match joined with
  | none => .ok ⟨[], some (flag, none)⟩
  | some joined => ofJoined flag isLetter joined.hasSign joined.text

end SourceAtlas.CommandLine
