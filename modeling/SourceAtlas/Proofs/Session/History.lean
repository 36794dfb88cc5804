/-
# SourceAtlas.Proofs.Session.History — a session from step to step.

What happens to a session is a list of steps: its owner runs it, calls it off, or gives it another
root or other options, and the tree changes.  What is to be told of the steps later is noted as it
happens (`Note`).  The session itself keeps less, and what it keeps is what the notes say
(`Sound`): its report is the last that a run has returned, and it stands called off exactly if it
was called off since the last run began.

A run takes the session as `enter` leaves it, so nothing of an earlier calling off reaches it, and
it lets go of the session however it ends.  Every run is therefore carried out, and comes to what a
scan of the tree of then comes to, under the root and the options of then (`play?_faithful`).
-/
import SourceAtlas.Proofs.Scan.Unheeded
import SourceAtlas.Session

namespace SourceAtlas.Session

/-! ## Steps -/

/-- What happens to a session. -/
inductive Step where
  /-- A run, during which the session is called off when the signal says. -/
  | run (generatedAt : String) (coming : Signal)
  /-- Another run, by its other name. -/
  | refresh (generatedAt : String) (coming : Signal)
  /-- The session is called off while no run is on. -/
  | cancel
  /-- The session gets another root. -/
  | assignRoot (root : String)
  /-- The session gets other options. -/
  | assignOptions (options : ScanOptions)
  /-- The tree changes. -/
  | changeTree (fs : FileSystem)

/-- Whether a step calls the session off and does nothing else. -/
def Step.isCancel : Step → Bool
  | cancel => true
  | _ => false

/-- What is noted. -/
inductive Note where
  /-- A run began. -/
  | began
  /-- The session was called off. -/
  | calledOff
  /-- A run ended, with a report or with a fault. -/
  | ended (result : Except ScanFault Report)

namespace Note

/-- Whether a run began. -/
def isBegan : Note → Bool
  | began => true
  | _ => false

/-- How a run ended. -/
def outcome? : Note → Option (Except ScanFault Report)
  | ended result => some result
  | _ => none

/-- What a run returned. -/
def report? : Note → Option Report
  | ended (.ok report) => some report
  | _ => none

end Note

/-- A session, the world around it, and what was noted. -/
structure State where
  fs : FileSystem
  session : Session
  /-- The notes, the latest first. -/
  notes : List Note

namespace State

/-- Before the first step. -/
def start (fs : FileSystem) (root : String) (options : ScanOptions) : State :=
  ⟨fs, Session.start root options, []⟩

/-- The report that was returned last. -/
def lastReport? (state : State) : Option Report :=
  state.notes.findSome? Note.report?

/-- How the runs ended, the last first. -/
def outcomes (state : State) : List (Except ScanFault Report) :=
  state.notes.filterMap Note.outcome?

/-- The session was called off since the last run began, or at any time if none has. -/
def CalledOff (state : State) : Prop :=
  Note.calledOff ∈ state.notes.takeWhile fun note => !note.isBegan

/-- The scan that a run of now amounts to. -/
def scan (state : State) (generatedAt : String) (signal : Signal) :
    Except ScanFault Report × Signal :=
  Scan.run state.fs (some state.session.root) generatedAt state.session.options signal

/-- Try to run the session.  A run waits for a session that is held, and waits for ever if nobody is
there to let go of it. -/
def attempt? (state : State)
    (run : FileSystem → String → Signal → Except ScanFault Report × Session)
    (generatedAt : String) (coming : Signal) : Option State :=
  if state.session.isHeld then none
  else
    let (result, session) := run state.fs generatedAt coming
    let called : List Note :=
      if (state.scan generatedAt coming).2.isSet then [.calledOff] else []
    some { state with session, notes := .ended result :: called ++ .began :: state.notes }

/-- Carry out a step. -/
def step? (state : State) : Step → Option State
  | .run generatedAt coming => state.attempt? state.session.run generatedAt coming
  | .refresh generatedAt coming => state.attempt? state.session.refresh generatedAt coming
  | .cancel =>
    some { state with session := state.session.cancel, notes := .calledOff :: state.notes }
  | .assignRoot root => some { state with session := { state.session with root } }
  | .assignOptions options => some { state with session := { state.session with options } }
  | .changeTree fs => some { state with fs }

/-- Carry out steps one after another. -/
def play? (state : State) (steps : List Step) : Option State :=
  steps.foldlM step? state

end State

open State

variable {state next : State} {generatedAt : String} {coming : Signal}

/-! ## One run -/

/-- **A run is a scan under the signal that comes**: the session stands called off no more. -/
theorem run_eq (session : Session) (fs : FileSystem) (generatedAt : String) (coming : Signal) :
    session.run fs generatedAt coming =
      let scan := Scan.run fs (some session.root) generatedAt session.options coming
      (scan.1, session.enter.leave scan.1 scan.2) := rfl

/-- A state after a run. -/
def State.ran (state : State) (generatedAt : String) (coming : Signal) : State :=
  let scan := state.scan generatedAt coming
  { state with
    session := state.session.enter.leave scan.1 scan.2
    notes :=
      .ended scan.1 :: (if scan.2.isSet then [.calledOff] else []) ++ .began :: state.notes }

/-- **A session that is free can be run.** -/
theorem attempt?_of_free (hfree : state.session.isHeld = false) (generatedAt : String)
    (coming : Signal) :
    state.attempt? state.session.run generatedAt coming = some (state.ran generatedAt coming) := by
  have hnot : ¬ state.session.isHeld = true := by
    rw [hfree]
    exact Bool.false_ne_true
  unfold attempt?
  rw [if_neg hnot, run_eq]
  rfl

theorem isHeld_ran : (state.ran generatedAt coming).session.isHeld = false := rfl

theorem cancelRequested_ran :
    (state.ran generatedAt coming).session.cancelRequested =
      (state.scan generatedAt coming).2.isSet := rfl

theorem outcomes_ran :
    (state.ran generatedAt coming).outcomes =
      (state.scan generatedAt coming).1 :: state.outcomes := by
  unfold outcomes ran
  simp only [List.cons_append]
  split
  · rfl
  · rfl

theorem calledOff_ran :
    (state.ran generatedAt coming).CalledOff ↔ (state.scan generatedAt coming).2.isSet = true := by
  unfold CalledOff ran
  simp only
  -- older notes do not count, because the run began after them
  cases (state.scan generatedAt coming).2.isSet with
  | true => exact iff_of_true (List.mem_cons_of_mem _ List.mem_cons_self) rfl
  | false =>
      refine iff_of_false ?_ Bool.false_ne_true
      intro hmem
      rcases List.mem_cons.mp hmem with heq | hmem
      · cases heq
      · cases hmem

/-- A run that returns a report is remembered by it. -/
theorem report_ran_of_ok {report : Report}
    (h : (state.scan generatedAt coming).1 = .ok report) :
    (state.ran generatedAt coming).session.report = some report ∧
      (state.ran generatedAt coming).lastReport? = some report := by
  unfold State.ran State.lastReport? leave
  simp only [h]
  exact ⟨trivial, rfl⟩

/-- **A run that fails leaves the session as it was**, but for whether it stands called off. -/
theorem session_ran_of_error {fault : ScanFault}
    (h : (state.scan generatedAt coming).1 = .error fault)
    (hfree : state.session.isHeld = false) :
    (state.ran generatedAt coming).session =
        { state.session with
          cancelRequested := (state.ran generatedAt coming).session.cancelRequested } ∧
      (state.ran generatedAt coming).lastReport? = state.lastReport? := by
  unfold State.ran State.lastReport? leave enter
  simp only [h, ← hfree, List.cons_append]
  refine ⟨trivial, ?_⟩
  split
  · rfl
  · rfl

/-! ## What the session keeps -/

/-- **`Sound state`** — what the session keeps is what the notes say. -/
structure Sound (state : State) : Prop where
  /-- No run holds the session. -/
  free : state.session.isHeld = false
  /-- The report is the one that was returned last. -/
  report : state.session.report = state.lastReport?
  /-- The session stands called off if it was called off since the last run began. -/
  called : state.session.cancelRequested = true ↔ state.CalledOff

theorem sound_start (fs : FileSystem) (root : String) (options : ScanOptions) :
    Sound (State.start fs root options) where
  free := rfl
  report := rfl
  called := iff_of_false Bool.false_ne_true List.not_mem_nil

theorem Sound.ran (h : Sound state) (generatedAt : String) (coming : Signal) :
    Sound (state.ran generatedAt coming) where
  free := isHeld_ran
  report := by
    cases hresult : (state.scan generatedAt coming).1 with
    | ok report =>
        obtain ⟨hreport, hlast⟩ := report_ran_of_ok hresult
        rw [hreport, hlast]
    | error fault =>
        obtain ⟨hsession, hlast⟩ := session_ran_of_error hresult h.free
        rw [hsession, hlast]
        exact h.report
  called := by rw [cancelRequested_ran, calledOff_ran]

/-- **Every step can be carried out, and keeps the session sound.** -/
theorem Sound.exists_step? (h : Sound state) (step : Step) :
    ∃ next, state.step? step = some next ∧ Sound next := by
  cases step with
  | run generatedAt coming =>
      exact ⟨_, attempt?_of_free h.free generatedAt coming, h.ran generatedAt coming⟩
  | refresh generatedAt coming =>
      exact ⟨_, attempt?_of_free h.free generatedAt coming, h.ran generatedAt coming⟩
  | cancel => exact ⟨_, rfl, h.free, h.report, iff_of_true rfl List.mem_cons_self⟩
  | assignRoot root => exact ⟨_, rfl, h.free, h.report, h.called⟩
  | assignOptions options => exact ⟨_, rfl, h.free, h.report, h.called⟩
  | changeTree fs => exact ⟨_, rfl, h.free, h.report, h.called⟩

theorem Sound.exists_play? (h : Sound state) (steps : List Step) :
    ∃ last, state.play? steps = some last ∧ Sound last := by
  induction steps generalizing state with
  | nil => exact ⟨state, rfl, h⟩
  | cons step rest ih =>
      obtain ⟨next, hnext, hsound⟩ := h.exists_step? step
      obtain ⟨last, hlast, hsound'⟩ := ih hsound
      refine ⟨last, ?_, hsound'⟩
      unfold State.play? at hlast ⊢
      rw [List.foldlM_cons, hnext]
      exact hlast

/-! ## What was assigned last -/

/-- The tree after a step. -/
def Step.treeAfter (fs : FileSystem) : Step → FileSystem
  | changeTree fs => fs
  | _ => fs

/-- The root after a step. -/
def Step.rootAfter (root : String) : Step → String
  | assignRoot root => root
  | _ => root

/-- The options after a step. -/
def Step.optionsAfter (options : ScanOptions) : Step → ScanOptions
  | assignOptions options => options
  | _ => options

/-- A run changes neither the tree nor the root nor the options. -/
theorem assigned_step? {step : Step} (h : state.step? step = some next) :
    next.fs = step.treeAfter state.fs ∧ next.session.root = step.rootAfter state.session.root ∧
      next.session.options = step.optionsAfter state.session.options := by
  have hrun : ∀ {generatedAt coming},
      state.attempt? state.session.run generatedAt coming = some next →
        next.fs = state.fs ∧ next.session.root = state.session.root ∧
          next.session.options = state.session.options := by
    intro generatedAt coming hattempt
    unfold attempt? at hattempt
    split at hattempt
    · cases hattempt
    · cases hattempt
      exact ⟨rfl, rfl, rfl⟩
  cases step with
  | run generatedAt coming => exact hrun h
  | refresh generatedAt coming => exact hrun h
  | cancel => cases h; exact ⟨rfl, rfl, rfl⟩
  | assignRoot root => cases h; exact ⟨rfl, rfl, rfl⟩
  | assignOptions options => cases h; exact ⟨rfl, rfl, rfl⟩
  | changeTree fs => cases h; exact ⟨rfl, rfl, rfl⟩

theorem assigned_play? {steps : List Step} (h : state.play? steps = some next) :
    next.fs = steps.foldl Step.treeAfter state.fs ∧
      next.session.root = steps.foldl Step.rootAfter state.session.root ∧
      next.session.options = steps.foldl Step.optionsAfter state.session.options := by
  induction steps generalizing state with
  | nil => cases h; exact ⟨rfl, rfl, rfl⟩
  | cons step rest ih =>
      unfold State.play? at h
      rw [List.foldlM_cons] at h
      obtain ⟨middle, hmiddle, hrest⟩ := Option.bind_eq_some_iff.mp h
      obtain ⟨hfs, hroot, hoptions⟩ := assigned_step? hmiddle
      have hlater := ih hrest
      rwa [hfs, hroot, hoptions] at hlater

/-! ## Calling off between runs -/

/-- **`Alike a b`** — the states differ at most in what was noted of calling off. -/
structure Alike (a b : State) : Prop where
  fs : a.fs = b.fs
  /-- To the next run the sessions are the same. -/
  session : a.session.enter = b.session.enter
  held : a.session.isHeld = b.session.isHeld
  outcomes : a.outcomes = b.outcomes

theorem Alike.ran {a b : State} (h : Alike a b) (generatedAt : String) (coming : Signal) :
    Alike (a.ran generatedAt coming) (b.ran generatedAt coming) := by
  have hscan : a.scan generatedAt coming = b.scan generatedAt coming := by
    have hroot : a.session.enter.root = b.session.enter.root := congrArg Session.root h.session
    have hoptions : a.session.enter.options = b.session.enter.options :=
      congrArg Session.options h.session
    show Scan.run a.fs (some a.session.enter.root) generatedAt a.session.enter.options coming = _
    rw [h.fs, hroot, hoptions]
    rfl
  refine ⟨h.fs, ?_, rfl, ?_⟩
  · unfold State.ran
    simp only [hscan, h.session]
  · rw [outcomes_ran, outcomes_ran, hscan, h.outcomes]

/-- Alike states stay alike. -/
theorem Alike.exists_step? {a b next : State} (h : Alike a b) (hfree : a.session.isHeld = false)
    {step : Step} (hstep : a.step? step = some next) :
    ∃ other, b.step? step = some other ∧ Alike next other := by
  have hran : ∀ {generatedAt coming},
      a.attempt? a.session.run generatedAt coming = some next →
        ∃ other, b.attempt? b.session.run generatedAt coming = some other ∧ Alike next other := by
    intro generatedAt coming hattempt
    rw [attempt?_of_free hfree] at hattempt
    cases hattempt
    exact ⟨_, attempt?_of_free (h.held ▸ hfree) generatedAt coming, h.ran generatedAt coming⟩
  cases step with
  | run generatedAt coming => exact hran hstep
  | refresh generatedAt coming => exact hran hstep
  | cancel =>
      cases hstep
      exact ⟨_, rfl, h.fs, h.session, h.held, h.outcomes⟩
  | assignRoot root =>
      cases hstep
      have hsession : ({ a.session.enter with root } : Session) = { b.session.enter with root } :=
        congrArg (fun entered : Session => { entered with root }) h.session
      exact ⟨_, rfl, h.fs, hsession, h.held, h.outcomes⟩
  | assignOptions options =>
      cases hstep
      have hsession : ({ a.session.enter with options } : Session) =
          { b.session.enter with options } :=
        congrArg (fun entered : Session => { entered with options }) h.session
      exact ⟨_, rfl, h.fs, hsession, h.held, h.outcomes⟩
  | changeTree fs =>
      cases hstep
      exact ⟨_, rfl, rfl, h.session, h.held, h.outcomes⟩

/-- **Without the calling off between runs everything ends as it did.** -/
theorem Alike.exists_play? {a b last : State} (h : Alike a b) (hsound : Sound a)
    {steps : List Step} (hplay : a.play? steps = some last) :
    ∃ other, b.play? (steps.filter fun step => !step.isCancel) = some other ∧
      Alike last other := by
  induction steps generalizing a b with
  | nil => cases hplay; exact ⟨b, rfl, h⟩
  | cons step rest ih =>
      obtain ⟨next, hnext, hsound'⟩ := hsound.exists_step? step
      unfold State.play? at hplay
      rw [List.foldlM_cons, hnext] at hplay
      by_cases hcancel : step.isCancel = true
      · -- the step is left out, and the state before it is like the one after it
        have halike : Alike next b := by
          cases step with
          | cancel =>
              cases hnext
              exact ⟨h.fs, h.session, h.held, h.outcomes⟩
          | _ => cases hcancel
        rw [List.filter_cons_of_neg (by rw [hcancel]; simp)]
        exact ih halike hsound' hplay
      · obtain ⟨middle, hmiddle, halike⟩ := h.exists_step? hsound.free hnext
        obtain ⟨other, hother, hlast⟩ := ih halike hsound' hplay
        refine ⟨other, ?_, hlast⟩
        rw [List.filter_cons_of_pos (by simpa using hcancel)]
        unfold State.play? at hother ⊢
        rw [List.foldlM_cons, hmiddle]
        exact hother

/-! ## Whole histories -/

/-- **`Ends scan coming state next`** — from one state to the next the session was run, the run
being a scan that is called off when the signal says. -/
structure Ends (scan : Signal → Except ScanFault Report × Signal) (coming : Signal)
    (state next : State) : Prop where
  /-- The run ends as the scan does. -/
  outcome : next.outcomes = (scan coming).1 :: state.outcomes
  /-- If nobody has called the session off when it ends, it ends as the scan without a signal. -/
  uncalled : next.session.cancelRequested = false →
    next.outcomes = (scan .never).1 :: state.outcomes
  /-- The session stands called off if that was done while the run was on. -/
  called : next.session.cancelRequested = (scan coming).2.isSet
  /-- A report is remembered. -/
  returned : ∀ report, (scan coming).1 = .ok report → next.session.report = some report
  /-- A fault changes nothing but whether the session stands called off. -/
  failed : ∀ fault, (scan coming).1 = .error fault →
    next.session = { state.session with cancelRequested := next.session.cancelRequested }

theorem Sound.ends_ran (h : Sound state) (generatedAt : String) (coming : Signal) :
    Ends (state.scan generatedAt) coming state (state.ran generatedAt coming) where
  outcome := outcomes_ran
  uncalled := by
    intro hcalled
    rw [cancelRequested_ran] at hcalled
    have hsame := (Scan.unheeded_run state.fs (some state.session.root) generatedAt
      state.session.options).same coming hcalled
    rw [outcomes_ran]
    exact congrArg (· :: state.outcomes) hsame
  called := cancelRequested_ran
  returned := fun _ hresult => (report_ran_of_ok hresult).1
  failed := fun _ hresult => (session_ran_of_error hresult h.free).1

/-- **`Faithful fs root options steps state`** — what there is to say of a session that began with a
tree, a root and options, after a list of steps. -/
structure Faithful (fs : FileSystem) (root : String) (options : ScanOptions) (steps : List Step)
    (state : State) : Prop where
  /-- The report is the one that was returned last; before the first there is none. -/
  report : state.session.report = state.lastReport?
  /-- The session stands called off exactly if it was called off since the last run began, or at any
  time if none has. -/
  called : state.session.cancelRequested = true ↔ state.CalledOff
  /-- One more run, by either name, is carried out, and is a scan of the tree as it is now under the
  root and the options that were assigned last. -/
  runs : ∀ (generatedAt : String) (coming : Signal), ∃ next,
    state.step? (.run generatedAt coming) = some next ∧
      state.step? (.refresh generatedAt coming) = some next ∧
      Ends (Scan.run (steps.foldl Step.treeAfter fs) (some (steps.foldl Step.rootAfter root))
        generatedAt (steps.foldl Step.optionsAfter options)) coming state next
  /-- Had the session never been called off between runs, every run would have ended as it did. -/
  idle : ∃ other,
    (State.start fs root options).play? (steps.filter fun step => !step.isCancel) = some other ∧
      other.outcomes = state.outcomes ∧ other.session.report = state.session.report

/-- **A session can always go on, and what it keeps and how its runs end is as it should be**: after
any list of steps, and so before and after each of them. -/
theorem play?_faithful (fs : FileSystem) (root : String) (options : ScanOptions)
    (steps : List Step) :
    ∃ state, (State.start fs root options).play? steps = some state ∧
      Faithful fs root options steps state := by
  have hstart := sound_start fs root options
  obtain ⟨state, hplay, hsound⟩ := hstart.exists_play? steps
  obtain ⟨hfs, hroot, hoptions⟩ := assigned_play? hplay
  refine ⟨state, hplay, hsound.report, hsound.called, ?_, ?_⟩
  · intro generatedAt coming
    have hran := attempt?_of_free hsound.free generatedAt coming
    have hends := hsound.ends_ran generatedAt coming
    unfold State.scan at hends
    rw [hfs, hroot, hoptions] at hends
    exact ⟨state.ran generatedAt coming, hran, hran, hends⟩
  · -- the two histories begin in the same state
    obtain ⟨other, hother, halike⟩ :=
      Alike.exists_play? ⟨rfl, rfl, rfl, rfl⟩ hstart hplay
    have hreport : state.session.enter.report = other.session.enter.report :=
      congrArg Session.report halike.session
    exact ⟨other, hother, halike.outcomes.symm, hreport.symm⟩

end SourceAtlas.Session
