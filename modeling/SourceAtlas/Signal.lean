/-
# SourceAtlas.Signal — when a scan is called off.

A signal is looked at from time to time.  Once it is set it stays set.  It is set after a number of
looks, or when the scan comes to a certain file; a signal that does neither is never set.
-/

namespace SourceAtlas

/-- A signal that calls off a scan. -/
structure Signal where
  /-- How many more looks find it unset; `none` if looking does not set it. -/
  looksLeft : Option Nat
  /-- The entry whose examination sets it. -/
  onExamine : Option String
  /-- The file whose reading sets it. -/
  onRead : Option String
  deriving DecidableEq, Repr

namespace Signal

/-- The signal that is never set. -/
def never : Signal := ⟨none, none, none⟩

/-- The signal that is set after a number of looks. -/
def after (looks : Nat) : Signal := ⟨some looks, none, none⟩

/-- Whether the signal is set now. -/
def isSet (signal : Signal) : Bool :=
  signal.looksLeft == some 0

/-- The signal, set. -/
def set (signal : Signal) : Signal :=
  { signal with looksLeft := some 0 }

/-- Look at the signal: whether it is set, and the signal afterwards. -/
def look (signal : Signal) : Bool × Signal :=
  match signal.looksLeft with
  | some (n + 1) => (false, { signal with looksLeft := some n })
  | some 0 => (true, signal)
  | none => (false, signal)

/-- The signal after the examination of an entry. -/
def examine (signal : Signal) (path : String) : Signal :=
  if signal.onExamine = some path then signal.set else signal

/-- The signal after the reading of a file has begun. -/
def read (signal : Signal) (path : String) : Signal :=
  if signal.onRead = some path then signal.set else signal

end Signal

end SourceAtlas
