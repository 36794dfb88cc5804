/-
# SourceAtlas.CommandLine.Flag — the flags of the command line.

Every flag has a name, which is written behind two dashes and may be cut short as long as it is the
only one that begins so.  Some have a letter too, which is written behind one dash.
-/

namespace SourceAtlas.CommandLine

/-- How many values a flag takes. -/
inductive Arity where
  | none
  | one
  /-- At least one. -/
  | many
  deriving DecidableEq, Repr

/-- The flags. -/
inductive Flag where
  | help
  | output
  | format
  | orientation
  | groupByFolder
  | showAll
  | style
  | settings
  | includeExtensions
  | excludeFolders
  | mainFile
  | workers
  | timeout
  | top
  | verbose
  | quiet
  deriving DecidableEq, Repr

namespace Flag

/-- All flags. -/
def all : List Flag :=
  [help, output, format, orientation, groupByFolder, showAll, style, settings, includeExtensions,
    excludeFolders, mainFile, workers, timeout, top, verbose, quiet]

/-- Every flag is among all. -/
theorem mem_all (flag : Flag) : flag ∈ all := by
  cases flag <;> decide

/-- The name of a flag. -/
def name : Flag → String
  | help => "help"
  | output => "output"
  | format => "format"
  | orientation => "orientation"
  | groupByFolder => "group-by-dir"
  | showAll => "show-all"
  | style => "ascii-style"
  | settings => "config"
  | includeExtensions => "include-ext"
  | excludeFolders => "exclude-dir"
  | mainFile => "main-file"
  | workers => "workers"
  | timeout => "timeout"
  | top => "top"
  | verbose => "verbose"
  | quiet => "quiet"

/-- The letter of a flag, if it has one. -/
def letter? : Flag → Option Char
  | help => some 'h'
  | output => some 'o'
  | format => some 'f'
  | verbose => some 'v'
  | quiet => some 'q'
  | _ => none

/-- How many values a flag takes. -/
def arity : Flag → Arity
  | help => .none
  | groupByFolder => .none
  | showAll => .none
  | verbose => .none
  | quiet => .none
  | includeExtensions => .many
  | excludeFolders => .many
  | _ => .one

/-- The flag with a letter. -/
def ofLetter? (c : Char) : Option Flag :=
  all.find? fun flag => flag.letter? == some c

/-- The flags that a name may mean: the one that has it, or all whose names begin with it. -/
def named (start : List Char) : List Flag :=
  match all.find? fun flag => flag.name.toList == start with
  | some flag => [flag]
  | none => all.filter fun flag => start.isPrefixOf flag.name.toList

end Flag

end SourceAtlas.CommandLine
