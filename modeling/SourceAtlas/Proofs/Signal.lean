/-
# SourceAtlas.Proofs.Signal — looks at a signal as a budget.

A signal that waits for no entry and no file is a budget of looks.  Whoever looks before each of a
list of items lets through as many of them as there are looks left (`grant`), and afterwards the
budget is smaller by the number of looks (`spend`).  A signal that is never set has a budget that
does not run out, so that one set of laws serves both.

A run under a signal `Needs` a number of looks if beyond that many the signal makes no difference to
what it comes to, and up to that many the run leaves the signal set.  Runs one after another need
the sum (`Needs.bind`).
-/
import SourceAtlas.Signal

namespace SourceAtlas

namespace Signal

/-! ## Looks as a budget -/

/-- The items that come through when the signal is looked at before each. -/
def grant {α : Type} (signal : Signal) (items : List α) : List α :=
  match signal.looksLeft with
  | some n => items.take n
  | none => items

/-- The signal after a number of looks. -/
def spend (signal : Signal) (looks : Nat) : Signal :=
  { signal with looksLeft := signal.looksLeft.map (· - looks) }

@[simp] theorem grant_nil {α : Type} (signal : Signal) : signal.grant ([] : List α) = [] := by
  unfold grant
  split
  · exact List.take_nil
  · rfl

@[simp] theorem spend_zero (signal : Signal) : signal.spend 0 = signal := by
  obtain ⟨looksLeft, onExamine, onRead⟩ := signal
  cases looksLeft with
  | none => rfl
  | some n => rfl

@[simp] theorem spend_spend (signal : Signal) (a b : Nat) :
    (signal.spend a).spend b = signal.spend (a + b) := by
  obtain ⟨looksLeft, onExamine, onRead⟩ := signal
  cases looksLeft with
  | none => rfl
  | some n =>
      show Signal.mk (some (n - a - b)) onExamine onRead = Signal.mk (some (n - (a + b))) _ _
      rw [Nat.sub_sub]

theorem grant_append {α : Type} (signal : Signal) (a b : List α) :
    signal.grant (a ++ b) = signal.grant a ++ (signal.spend a.length).grant b := by
  obtain ⟨looksLeft, onExamine, onRead⟩ := signal
  cases looksLeft with
  | none => rfl
  | some n => exact List.take_append

/-- A look at a signal that is set changes nothing, and nothing comes through. -/
theorem look_of_isSet {signal : Signal} (h : signal.isSet = true) :
    signal.look = (true, signal) ∧ (∀ looks, signal.spend looks = signal) ∧
      ∀ {α : Type} (items : List α), signal.grant items = [] := by
  obtain ⟨looksLeft, onExamine, onRead⟩ := signal
  have hzero : looksLeft = some 0 := eq_of_beq h
  subst hzero
  refine ⟨rfl, ?_, ?_⟩
  · intro looks
    show Signal.mk (some (0 - looks)) onExamine onRead = _
    rw [Nat.zero_sub]
  · intro α items
    rfl

/-- A look at a signal that is not set uses up one look and lets one item through. -/
theorem look_of_not_isSet {signal : Signal} (h : signal.isSet = false) :
    signal.look = (false, signal.spend 1) ∧
      ∀ {α : Type} (item : α) (items : List α),
        signal.grant (item :: items) = item :: (signal.spend 1).grant items := by
  obtain ⟨looksLeft, onExamine, onRead⟩ := signal
  cases looksLeft with
  | none => exact ⟨rfl, fun item items => rfl⟩
  | some n =>
      cases n with
      | zero => cases h
      | succ n => exact ⟨rfl, fun item items => List.take_succ_cons⟩

theorem examine_of_none {signal : Signal} (h : signal.onExamine = none) (path : String) :
    signal.examine path = signal := by
  unfold examine
  rw [h]
  rfl

theorem look_never : never.look = (false, never) := rfl

theorem isSet_after (n : Nat) : (after n).isSet = decide (n = 0) := by
  cases n with
  | zero => rfl
  | succ n => rfl

theorem look_after (n : Nat) : (after n).look = (decide (n = 0), after (n - 1)) := by
  cases n with
  | zero => rfl
  | succ n => rfl

/-! ## Runs that need looks -/

/-- **`Needs run looks`** — a run needs a number of looks: with more it comes to what it comes to
without a signal, and with no more than that it leaves the signal set. -/
structure Needs {α : Type} (run : Signal → α × Signal) (looks : Nat) : Prop where
  unset : (run never).2 = never
  enough : ∀ n, looks < n → run (after n) = ((run never).1, after (n - looks))
  short : ∀ n, n ≤ looks → (run (after n)).2 = after 0

variable {α β : Type}

/-- What does not look needs no looks. -/
theorem needs_zero (a : α) : Needs (fun signal => (a, signal)) 0 where
  unset := rfl
  enough := fun n _ => rfl
  short := fun n hn => by rw [Nat.le_zero.mp hn]

/-- A look needs one look. -/
theorem needs_look : Needs look 1 where
  unset := rfl
  enough := by
    intro n hn
    rw [look_after, decide_eq_false (by omega)]
    rfl
  short := by
    intro n hn
    rw [look_after]
    show after (n - 1) = after 0
    congr 1
    omega

/-- **Runs one after another need the sum**, if the second leaves a signal set that it finds set. -/
theorem Needs.bind {first : Signal → α × Signal} {next : α → Signal → β × Signal} {a b : Nat}
    (hfirst : Needs first a) (hnext : Needs (next (first never).1) b)
    (hset : ∀ x, (next x (after 0)).2 = after 0) :
    Needs (fun signal => next (first signal).1 (first signal).2) (a + b) where
  unset := by
    show (next (first never).1 (first never).2).2 = never
    rw [hfirst.unset, hnext.unset]
  enough := by
    intro n hn
    show next (first (after n)).1 (first (after n)).2 =
      ((next (first never).1 (first never).2).1, after (n - (a + b)))
    rw [hfirst.enough n (by omega), hfirst.unset, hnext.enough (n - a) (by omega), Nat.sub_sub]
  short := by
    intro n hn
    show (next (first (after n)).1 (first (after n)).2).2 = after 0
    -- the looks run out in the first run, or in the second with what the first has left
    by_cases hn' : n ≤ a
    · rw [hfirst.short n hn', hset]
    · rw [hfirst.enough n (by omega), hnext.short (n - a) (by omega)]

end Signal

end SourceAtlas
