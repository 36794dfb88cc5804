/-
# SourceAtlas.Session — scanning one root again and again.

A session remembers its root, its options and the last report.  One run at a time holds it: a run
takes the session and forgets that it was called off before, and when it is done it lets go of it,
with a report or without.  A run that gives no report leaves the last one in place.  Calling a
session off concerns the run that is on; the next run starts afresh.
-/
import SourceAtlas.Scan
import SourceAtlas.Text.Quoted

namespace SourceAtlas

/-- A root, its options and what came of them last. -/
structure Session where
  root : String
  options : ScanOptions
  report : Option Report
  /-- Whether the session was called off since the last run began. -/
  cancelRequested : Bool
  /-- Whether a run holds the session.  Another run waits until it is let go of. -/
  isHeld : Bool

namespace Session

/-- A session that has not run yet. -/
def start (root : String) (options : ScanOptions) : Session :=
  ⟨root, options, none, false, false⟩

/-! ## A run -/

/-- The session as a run takes it. -/
def enter (session : Session) : Session :=
  { session with isHeld := true, cancelRequested := false }

/-- The signal of a run: set from the first if the session stands called off, and otherwise set when
somebody calls the session off. -/
def signalOf (session : Session) (coming : Signal) : Signal :=
  if session.cancelRequested then coming.set else coming

/-- The session as a run lets go of it. -/
def leave (session : Session) (result : Except ScanFault Report) (signal : Signal) : Session :=
  { session with
    report :=
      match result with
      | .ok report => some report
      | .error _ => session.report
    cancelRequested := signal.isSet
    isHeld := false }

/-- Run a scan and remember its report.  While it is on, it is called off when the given signal
says. -/
def run (session : Session) (fs : FileSystem) (generatedAt : String) (coming : Signal) :
    Except ScanFault Report × Session :=
  let entered := session.enter
  let (result, signal) :=
    Scan.run fs (some entered.root) generatedAt entered.options (entered.signalOf coming)
  (result, entered.leave result signal)

/-- Run again, under the root and the options of now. -/
def refresh (session : Session) (fs : FileSystem) (generatedAt : String) (coming : Signal) :
    Except ScanFault Report × Session :=
  session.run fs generatedAt coming

/-- Call the session off. -/
def cancel (session : Session) : Session :=
  { session with cancelRequested := true }

/-! ## Showing -/

/-- The session in one line. -/
def summary (session : Session) : String :=
  "ScanSession(root=" ++ Text.quoted session.root ++ ", has_report="
    ++ (if session.report.isSome then "True" else "False") ++ ")"

end Session

end SourceAtlas
