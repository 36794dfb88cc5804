/-
# SourceAtlas.FileSystem.Entry — directory trees.

A tree of named entries: files, folders, symbolic links and special files.  An entry can be at
fault, in one of four ways: its folder listing fails, its examination fails, its text cannot be
read, or reading it never ends.  Names are unique within a folder; the order of entries in a folder
means nothing.
-/
import SourceAtlas.OrderedSet

namespace SourceAtlas

/-- The bytes of a file. -/
inductive Content where
  | bytes (content : List UInt8)
  /-- So many zero bytes. -/
  | zeros (count : Nat)
  deriving DecidableEq, Repr

/-- The number of bytes. -/
def Content.size : Content → Nat
  | .bytes content => content.length
  | .zeros count => count

/-- The bytes themselves. -/
def Content.toBytes : Content → List UInt8
  | .bytes content => content
  | .zeros count => List.replicate count 0

/-- What fails about an entry. -/
structure Faults where
  /-- The folder cannot be listed. -/
  list : Bool
  /-- The entry cannot be examined. -/
  examine : Bool
  /-- The file cannot be read. -/
  read : Bool
  /-- Reading the file never ends. -/
  hang : Bool
  deriving DecidableEq, Repr, Inhabited

/-- Nothing fails. -/
def Faults.none : Faults := ⟨false, false, false, false⟩

/-- An entry of a directory. -/
inductive Entry where
  | file (name : String) (faults : Faults) (content : Content)
  | folder (name : String) (faults : Faults) (entries : List Entry)
  | link (name : String) (faults : Faults) (target : String)
  /-- Neither file nor folder nor link, such as a named pipe. -/
  | special (name : String) (faults : Faults)
  deriving Inhabited

namespace Entry

/-- The name of the entry. -/
def name : Entry → String
  | file name _ _ => name
  | folder name _ _ => name
  | link name _ _ => name
  | special name _ => name

/-- What fails about the entry. -/
def faults : Entry → Faults
  | file _ faults _ => faults
  | folder _ faults _ => faults
  | link _ faults _ => faults
  | special _ faults => faults

/-- The entry with other faults. -/
def withFaults (faults : Faults) : Entry → Entry
  | file name _ content => file name faults content
  | folder name _ entries => folder name faults entries
  | link name _ target => link name faults target
  | special name _ => special name faults

/-- The entries of a folder. -/
def entries : Entry → List Entry
  | folder _ _ entries => entries
  | _ => []

/-- Whether the entry is a folder. -/
def isFolder : Entry → Bool
  | folder _ _ _ => true
  | _ => false

/-- A folder without entries and faults. -/
def emptyFolder (name : String) : Entry :=
  folder name Faults.none []

/-- The entry that a list of names leads to, without following links. -/
def at? (entry : Entry) : List String → Option Entry
  | [] => some entry
  | name :: rest =>
    match entry.entries.find? (·.name == name) with
    | some child => child.at? rest
    | none => none

/-! ## Changes -/

/-- Change the entry of a name among others; it is made from a start if it is not there. -/
def changeIn (name : String) (start : Entry) (change : Entry → Entry) : List Entry → List Entry
  | [] => [change start]
  | entry :: rest =>
    if entry.name = name then change entry :: rest
    else entry :: changeIn name start change rest

/-- Change the entry that a list of names leads to; folders on the way are made if need be, and the
entry itself is made as an empty folder. -/
def changeAt (change : Entry → Entry) : List String → Entry → Entry
  | [], entry => change entry
  | name :: rest, entry =>
    folder entry.name entry.faults
      (changeIn name (emptyFolder name) (changeAt change rest) entry.entries)

/-- Put an entry into the folder that a list of names leads to, in place of one with its name. -/
def put (parents : List String) (entry : Entry) (tree : Entry) : Entry :=
  tree.changeAt (fun _ => entry) (parents ++ [entry.name])

/-- Take away the entry that a list of names leads to. -/
def remove : List String → Entry → Entry
  | [], entry => entry
  | [name], folder n faults entries => folder n faults (entries.filter (·.name != name))
  | name :: rest, folder n faults entries =>
    folder n faults
      (entries.map fun entry => if entry.name = name then remove rest entry else entry)
  | _, entry => entry

/-! ## Order -/

/-- Put an entry at its place among entries in order of their names. -/
def insertOrdered (entry : Entry) : List Entry → List Entry
  | [] => [entry]
  | other :: rest =>
    if entry.name ≤ other.name then entry :: other :: rest
    else other :: insertOrdered entry rest

mutual

/-- The tree with the entries of every folder in order of their names. -/
def ordered : Entry → Entry
  | folder name faults entries => folder name faults (orderedAll entries)
  | file name faults content => file name faults content
  | link name faults target => link name faults target
  | special name faults => special name faults

/-- Entries in order of their names, and so below each of them. -/
def orderedAll : List Entry → List Entry
  | [] => []
  | entry :: rest => insertOrdered (ordered entry) (orderedAll rest)

end

end Entry

end SourceAtlas
