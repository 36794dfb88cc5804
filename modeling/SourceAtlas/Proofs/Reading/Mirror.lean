/-
# SourceAtlas.Proofs.Reading.Mirror — a pool and the loop that it is the shape of.

A pool has one read for each file; a loop has tickets.  The loop mirrors the pool if its pending
tickets stand, one by one and in order, where the reads of the pool stand (`Mirrors`).  What a
reader does to the pool, some steps of the loop's readers do to the loop (`Mirrors.exists_start`,
`Mirrors.exists_finish_called`, `Mirrors.exists_finish_found`), and settling a read settles its
ticket (`Mirrors.settle`).
-/
import Mathlib.Data.List.Forall2
import SourceAtlas.Proofs.Reading.Passes
import SourceAtlas.Proofs.Reading.Pool

namespace SourceAtlas.Reading.Loop

variable {jobs : List Job} {workers : Nat} {limit : Option Nat} {loop next : Loop} {pool : Pool}
  {number : Nat} {ticket : Ticket} {path : String}

/-! ## Lists side by side -/

section Forall₂

variable {α β : Type} {R S : α → β → Prop} {l : List α} {m : List β}

/-- What stands side by side still does after both sides have changed. -/
theorem forall₂_map_of_mem {g : β → β} (h : List.Forall₂ R l m)
    (hRS : ∀ a ∈ l, ∀ b ∈ m, R a b → S a (g b)) : List.Forall₂ S l (m.map g) := by
  induction h with
  | nil => exact List.Forall₂.nil
  | cons hab hrest ih =>
      refine List.Forall₂.cons (hRS _ List.mem_cons_self _ List.mem_cons_self hab) (ih ?_)
      intro a ha b hb
      exact hRS a (List.mem_cons_of_mem _ ha) b (List.mem_cons_of_mem _ hb)

/-- What stands side by side still does after the same places are left out. -/
theorem forall₂_filter_of_mem {f : α → Bool} {g : β → Bool} (h : List.Forall₂ R l m)
    (hfg : ∀ a ∈ l, ∀ b ∈ m, R a b → f a = g b) :
    List.Forall₂ R (l.filter f) (m.filter g) := by
  induction h with
  | nil => exact List.Forall₂.nil
  | @cons a b l m hab hrest ih =>
      have hsame := hfg a List.mem_cons_self b List.mem_cons_self hab
      have hrest' := ih fun a ha b hb =>
        hfg a (List.mem_cons_of_mem _ ha) b (List.mem_cons_of_mem _ hb)
      rw [List.filter_cons, List.filter_cons, hsame]
      split
      · exact List.Forall₂.cons hab hrest'
      · exact hrest'

theorem exists_left_of_mem {b : β} (h : List.Forall₂ R l m) (hb : b ∈ m) : ∃ a ∈ l, R a b := by
  induction h with
  | nil => cases hb
  | cons hab hrest ih =>
      rcases List.mem_cons.mp hb with rfl | hb
      · exact ⟨_, List.mem_cons_self, hab⟩
      · obtain ⟨a, ha, hR⟩ := ih hb
        exact ⟨a, List.mem_cons_of_mem _ ha, hR⟩

theorem exists_right_of_mem {a : α} (h : List.Forall₂ R l m) (ha : a ∈ l) : ∃ b ∈ m, R a b := by
  induction h with
  | nil => cases ha
  | cons hab hrest ih =>
      rcases List.mem_cons.mp ha with rfl | ha
      · exact ⟨_, List.mem_cons_self, hab⟩
      · obtain ⟨b, hb, hR⟩ := ih ha
        exact ⟨b, List.mem_cons_of_mem _ hb, hR⟩

end Forall₂

/-! ## Mirroring -/

/-- A ticket stands where a read stands. -/
def Stands (loop : Loop) (ticket : Ticket) : Stage → Prop
  | .waiting => ticket.stage = .queued
  | .running since =>
    ticket.stage = .begun ∧ loop.begun.lookup ticket.job.path = some since
  | .ended found => ticket.stage = .ended found

/-- The stage of a ticket that stands where a read stands. -/
def ofStage : Stage → Ticket.Stage
  | .waiting => .queued
  | .running _ => .begun
  | .ended found => .ended found

theorem Stands.stage_eq {stage : Stage} (h : Stands loop ticket stage) :
    ticket.stage = ofStage stage := by
  cases stage with
  | waiting => exact h
  | running since => exact h.1
  | ended found => exact h

/-- A ticket of the latest readers is that of a read. -/
def Shows (loop : Loop) (number : Nat) (p : Pending) : Prop :=
  ∃ ticket, loop.tickets[number]? = some ticket ∧ ticket.job.path = p.path ∧
    ticket.readers = loop.readers ∧ Stands loop ticket p.stage

theorem Shows.congr {p : Pending} (h : Shows loop number p) (htickets : next.tickets = loop.tickets)
    (hbegun : next.begun = loop.begun) (hreaders : next.readers = loop.readers) :
    Shows next number p := by
  obtain ⟨ticket, has, hpath, hticket, hstands⟩ := h
  refine ⟨ticket, htickets ▸ has, hpath, hticket.trans hreaders.symm, ?_⟩
  cases hstage : p.stage with
  | running since =>
      rw [hstage] at hstands
      exact ⟨hstands.1, hbegun ▸ hstands.2⟩
  | waiting =>
      rw [hstage] at hstands
      exact hstands
  | ended found =>
      rw [hstage] at hstands
      exact hstands

/-- **`Mirrors jobs pool loop`** — the loop's pending tickets stand where the pool's reads stand. -/
structure Mirrors (jobs : List Job) (pool : Pool) (loop : Loop) : Prop where
  orderly : Orderly jobs loop loop.phase
  results : loop.results = pool.results
  now : loop.now = pool.now
  pending : List.Forall₂ (Shows loop) loop.pending pool.pending

/-- **`Roomy loop`** — the latest readers are at pending tickets only, if there are any. -/
def Roomy (loop : Loop) : Prop :=
  loop.pending ≠ [] → ∀ number ticket, loop.tickets[number]? = some ticket →
    ticket.readers = loop.readers → ticket.stage.busy = true → number ∈ loop.pending

/-- What a reader leaves alone. -/
structure Beside (loop next : Loop) : Prop where
  phase : next.phase = loop.phase
  pending : next.pending = loop.pending
  readers : next.readers = loop.readers

namespace Mirrors

section Facts

variable (h : Mirrors jobs pool loop) (hjobs : (jobs.map (·.path)).Nodup)
include h

theorem unsettled : pool.unsettled = pathsOf loop.tickets loop.pending := by
  have hpaths : ∀ {numbers : List Nat} {pending : List Pending},
      List.Forall₂ (Shows loop) numbers pending →
        pending.map (·.path) = pathsOf loop.tickets numbers := by
    intro numbers pending hboth
    induction hboth with
    | nil => rfl
    | cons hshows hrest ih =>
        obtain ⟨ticket, has, hpath, -⟩ := hshows
        unfold pathsOf at ih ⊢
        rw [List.filterMap_cons_some (pathOf_of_has has), List.map_cons, ih, hpath]
  exact hpaths h.pending

include hjobs

theorem nodup_unsettled : pool.unsettled.Nodup := by
  rw [h.unsettled]
  exact h.orderly.nodup_pathsOf hjobs

/-- The ticket of a file is the one with the file's path. -/
theorem eq_number_iff (hnumber : number ∈ loop.pending) (has : loop.tickets[number]? = some ticket)
    {other : Nat} (hother : other ∈ loop.pending) {p : Pending} (hshows : Shows loop other p) :
    other = number ↔ p.path = ticket.job.path := by
  obtain ⟨ticket', has', hpath', -⟩ := hshows
  constructor
  · rintro rfl
    rw [has] at has'
    rw [← hpath', Option.some.inj has']
  · intro hsame
    refine h.orderly.eq_of_pathOf hjobs hother hnumber ?_
    rw [pathOf_of_has has', pathOf_of_has has, hpath', hsame]

omit hjobs in
/-- The ticket of a read. -/
theorem exists_ticket {stage : Stage} (hstage : pool.stage? path = some stage) :
    ∃ number ∈ loop.pending, ∃ ticket, loop.tickets[number]? = some ticket ∧
      ticket.job.path = path ∧ ticket.readers = loop.readers ∧ Stands loop ticket stage := by
  obtain ⟨p, hp, rfl, rfl⟩ := Pool.exists_of_stage? hstage
  exact exists_left_of_mem h.pending hp

/-- **Another stage of a ticket mirrors another stage of its read.** -/
theorem move (hnumber : number ∈ loop.pending) (has : loop.tickets[number]? = some ticket)
    {stage : Ticket.Stage} {stage' : Stage} (horderly : Orderly jobs next next.phase)
    (htickets : next.tickets = (loop.setStage number stage).tickets)
    (hbeside : Beside loop next) (hresults : next.results = loop.results)
    (hnow : next.now = loop.now)
    (hbegun : ∀ path ≠ ticket.job.path, next.begun.lookup path = loop.begun.lookup path)
    (hstands : Stands next { ticket with stage } stage') :
    Mirrors jobs (pool.setStage ticket.job.path stage') next where
  orderly := horderly
  results := hresults.trans h.results
  now := hnow.trans h.now
  pending := by
    rw [hbeside.pending]
    refine forall₂_map_of_mem h.pending fun other hother p hp hshows => ?_
    have hsame := h.eq_number_iff hjobs hnumber has hother hshows
    obtain ⟨ticket', has', hpath', hreaders, hstands'⟩ := hshows
    unfold Shows
    rw [htickets, getElem?_setStage, has', hbeside.readers]
    by_cases hpath : p.path = ticket.job.path
    · obtain rfl := hsame.mpr hpath
      rw [has] at has'
      obtain rfl := Option.some.inj has'
      rw [if_pos hpath]
      exact ⟨{ ticket with stage }, by simp, hpath.symm, hreaders, hstands⟩
    · have hne : number ≠ other := fun heq => hpath (hsame.mp heq.symm)
      rw [if_neg hpath]
      refine ⟨ticket', by simp [hne], hpath', hreaders, ?_⟩
      cases hstage : p.stage with
      | waiting =>
          rw [hstage] at hstands'
          exact hstands'
      | running since =>
          rw [hstage] at hstands'
          exact ⟨hstands'.1, (hbegun _ (by rw [hpath']; exact hpath)).trans hstands'.2⟩
      | ended found =>
          rw [hstage] at hstands'
          exact hstands'

/-- **Settling a ticket mirrors settling its read.** -/
theorem settle (hnumber : number ∈ loop.pending) (has : loop.tickets[number]? = some ticket)
    {results : SpecifierMap} (horderly : Orderly jobs next next.phase)
    (htickets : next.tickets = loop.tickets) (hbegun : next.begun = loop.begun)
    (hreaders : next.readers = loop.readers) (hpending : next.pending = loop.pending.erase number)
    (hresults : next.results = results) (hnow : next.now = loop.now) :
    Mirrors jobs { pool.settle ticket.job.path with results } next where
  orderly := horderly
  results := hresults
  now := hnow.trans h.now
  pending := by
    rw [hpending, (h.orderly.nodup_pending hjobs).erase_eq_filter]
    have hleft : List.Forall₂ (Shows loop) (loop.pending.filter (· != number))
        (pool.pending.filter (·.path != ticket.job.path)) := by
      refine forall₂_filter_of_mem h.pending fun other hother p hp hshows => ?_
      rw [Bool.eq_iff_iff, bne_iff_ne, bne_iff_ne]
      exact not_congr (h.eq_number_iff hjobs hnumber has hother hshows)
    exact hleft.imp fun other p hshows => hshows.congr htickets hbegun hreaders

end Facts

end Mirrors

/-- Another stage of a pending ticket leaves as much room. -/
theorem Roomy.move (h : Roomy loop) (hnumber : number ∈ loop.pending) {stage : Ticket.Stage}
    (htickets : next.tickets = (loop.setStage number stage).tickets) (hbeside : Beside loop next) :
    Roomy next := by
  unfold Roomy
  rw [hbeside.pending, hbeside.readers, htickets]
  intro hne other ticket has hreaders hbusy
  rw [getElem?_setStage] at has
  obtain ⟨old, hold, hticket⟩ := Option.map_eq_some_iff.mp has
  by_cases hsame : number = other
  · exact hsame ▸ hnumber
  · rw [if_neg hsame] at hticket
    subst hticket
    exact h hne other old hold hreaders hbusy

/-! ## Readers -/

theorem setStage_setStage (loop : Loop) (number : Nat) (first last : Ticket.Stage) :
    (loop.setStage number first).setStage number last = loop.setStage number last := by
  unfold setStage
  simp only
  rw [List.modify_modify_eq]
  rfl

/-- One more reader is busy, at most. -/
theorem busy_setStage_le (has : loop.tickets[number]? = some ticket) (stage : Ticket.Stage)
    (readers : Nat) : (loop.setStage number stage).busy readers ≤ loop.busy readers + 1 := by
  obtain ⟨before, after, hbefore, hafter⟩ := exists_split has stage
  unfold busy
  rw [hbefore, hafter, List.countP_append, List.countP_append, List.countP_cons, List.countP_cons]
  split
  · omega
  · omega

theorem busy_setStage_of_not_busy (has : loop.tickets[number]? = some ticket)
    {stage : Ticket.Stage} (hstage : stage.busy = false) (readers : Nat) :
    (loop.setStage number stage).busy readers ≤ loop.busy readers := by
  obtain ⟨before, after, hbefore, hafter⟩ := exists_split has stage
  unfold busy
  rw [hbefore, hafter, List.countP_append, List.countP_append, List.countP_cons, List.countP_cons,
    hstage, Bool.and_false]
  simp

theorem step_ticket (has : loop.tickets[number]? = some ticket) (act : Ticket → Loop) :
    (loop.tickets[number]?.map act).getD loop = act ticket := by
  rw [has]
  rfl

theorem has_setStage (has : loop.tickets[number]? = some ticket) (stage : Ticket.Stage) :
    (loop.setStage number stage).tickets[number]? = some { ticket with stage } := by
  rw [getElem?_setStage, has]
  simp

/-- **`Follows workers limit jobs loop pool more next`** — readers lead the loop to a state that
mirrors the pool, with at most so many more readers busy. -/
structure Follows (workers : Nat) (limit : Option Nat) (jobs : List Job) (loop : Loop) (pool : Pool)
    (more : Nat) (next : Loop) : Prop where
  reaches : Reaches workers limit loop next
  mirrors : Mirrors jobs pool next
  beside : Beside loop next
  roomy : Roomy loop → Roomy next
  busy : next.busy next.readers ≤ loop.busy loop.readers + more

namespace Mirrors

variable (h : Mirrors jobs pool loop) (hjobs : (jobs.map (·.path)).Nodup)
include h hjobs

/-- A free reader takes up a ticket and begins. -/
theorem exists_start (hroom : loop.busy loop.readers < workers)
    (hwaits : pool.stage? path = some .waiting) :
    ∃ next, Follows workers limit jobs loop (pool.step (.start path)) 1 next ∧
      next.calledOff = loop.calledOff := by
  obtain ⟨number, hnumber, ticket, has, rfl, hreaders, hqueued⟩ := h.exists_ticket hwaits
  have hqueued : ticket.stage = .queued := hqueued
  -- the reader takes the ticket up
  have htake : loop.step workers limit (.take number) = loop.setStage number .taken := by
    refine (step_ticket has _).trans ?_
    unfold take
    rw [hqueued]
    exact if_pos (by rw [hreaders]; exact hroom)
  have has' := has_setStage has .taken
  -- and notes the time
  have hstart : (loop.setStage number .taken).step workers limit (.start number) =
      { loop.setStage number .begun with
        begun := (ticket.job.path, loop.now) :: loop.begun } := by
    refine (step_ticket has' _).trans ?_
    show { (loop.setStage number .taken).setStage number .begun with
      begun := (ticket.job.path, loop.now) :: loop.begun } = _
    rw [setStage_setStage]
  have hreaches : Reaches workers limit loop { loop.setStage number .begun with
      begun := (ticket.job.path, loop.now) :: loop.begun } := by
    have hfirst : Reaches workers limit loop _ := Reaches.step (.take number)
    rw [htake] at hfirst
    have hsecond : Reaches workers limit (loop.setStage number .taken) _ :=
      Reaches.step (.start number)
    rw [hstart] at hsecond
    exact hfirst.trans hsecond
  have hpool : pool.step (.start ticket.job.path) =
      pool.setStage ticket.job.path (.running pool.now) := by
    simp only [Pool.step, hwaits]
  refine ⟨_, ⟨hreaches, ?_, ⟨rfl, rfl, rfl⟩,
    fun hroomy => hroomy.move hnumber rfl ⟨rfl, rfl, rfl⟩,
    busy_setStage_le has .begun loop.readers⟩, rfl⟩
  rw [hpool, ← h.now]
  refine h.move hjobs hnumber has (h.orderly.reaches hjobs hreaches) rfl ⟨rfl, rfl, rfl⟩ rfl rfl ?_
    ⟨rfl, List.lookup_cons_self⟩
  intro path hne
  show ((ticket.job.path, loop.now) :: loop.begun).lookup path = _
  rw [List.lookup_cons, beq_eq_false_iff_ne.mpr hne]

/-- A reader that is done with a ticket has done with its read. -/
theorem follows_ended (hnumber : number ∈ loop.pending) (has : loop.tickets[number]? = some ticket)
    {since : Nat} (hruns : pool.stage? ticket.job.path = some (.running since))
    {found : Option NameSet} {calledOff : Bool}
    (hreaches : Reaches workers limit loop
      { loop.setStage number (.ended found) with calledOff }) :
    Follows workers limit jobs loop (pool.step (.finish ticket.job.path found)) 0
      { loop.setStage number (.ended found) with calledOff } := by
  have hpool : pool.step (.finish ticket.job.path found) =
      pool.setStage ticket.job.path (.ended found) := by
    simp only [Pool.step, hruns]
  refine ⟨hreaches, ?_, ⟨rfl, rfl, rfl⟩, fun hroomy => hroomy.move hnumber rfl ⟨rfl, rfl, rfl⟩,
    busy_setStage_of_not_busy has rfl loop.readers⟩
  rw [hpool]
  exact h.move hjobs hnumber has (h.orderly.reaches hjobs hreaches) rfl ⟨rfl, rfl, rfl⟩ rfl rfl
    (fun _ _ => rfl) rfl

/-- A reader finds the scan called off. -/
theorem exists_finish_called {since : Nat} (hruns : pool.stage? path = some (.running since)) :
    ∃ next, Follows workers limit jobs loop (pool.step (.finish path none)) 0 next ∧
      next.calledOff = true := by
  obtain ⟨number, hnumber, ticket, has, rfl, hreaders, hbegun, hsince⟩ := h.exists_ticket hruns
  have hlook : ({ loop with calledOff := true } : Loop).step workers limit (.look number) =
      { loop.setStage number (.ended none) with calledOff := true } := by
    have hcalled : ({ loop with calledOff := true } : Loop).tickets[number]? = some ticket := has
    refine (step_ticket hcalled _).trans ?_
    unfold look
    rw [hbegun]
    rfl
  have hreaches : Reaches workers limit loop
      { loop.setStage number (.ended none) with calledOff := true } := by
    have hfirst : Reaches workers limit loop { loop with calledOff := true } :=
      Reaches.step .callOff
    have hsecond : Reaches workers limit { loop with calledOff := true } _ :=
      Reaches.step (.look number)
    rw [hlook] at hsecond
    exact hfirst.trans hsecond
  exact ⟨_, h.follows_ended hjobs hnumber has hruns hreaches, rfl⟩

/-- A reader reads a file to its end. -/
theorem exists_finish_found {since : Nat} (hruns : pool.stage? path = some (.running since))
    (hoff : loop.calledOff = false) {job : Job} (hjob : job ∈ jobs) (hpath : job.path = path)
    {found : NameSet} (hfound : job.outcome.specifiers? job.language = some found) :
    ∃ next, Follows workers limit jobs loop (pool.step (.finish path (some found))) 0 next ∧
      next.calledOff = false := by
  obtain ⟨number, hnumber, ticket, has, rfl, hreaders, hbegun, hsince⟩ := h.exists_ticket hruns
  have hsame : ticket.job = job :=
    List.inj_on_of_nodup_map hjobs (h.orderly.known ticket (List.mem_of_getElem? has)) hjob
      hpath.symm
  have hlook : loop.step workers limit (.look number) = loop.setStage number .reading := by
    refine (step_ticket has _).trans ?_
    unfold look
    rw [hbegun, hoff]
    rfl
  have has' := has_setStage has .reading
  have hfinish : (loop.setStage number .reading).step workers limit (.finish number) =
      loop.setStage number (.ended (some found)) := by
    refine (step_ticket has' _).trans ?_
    unfold finish
    simp only [hsame, hfound]
    exact setStage_setStage loop number _ _
  have hreaches : Reaches workers limit loop (loop.setStage number (.ended (some found))) := by
    have hfirst : Reaches workers limit loop _ := Reaches.step (.look number)
    rw [hlook] at hfirst
    have hsecond : Reaches workers limit (loop.setStage number .reading) _ :=
      Reaches.step (.finish number)
    rw [hfinish] at hsecond
    exact hfirst.trans hsecond
  exact ⟨_, h.follows_ended hjobs hnumber has hruns hreaches, hoff⟩

end Mirrors

end SourceAtlas.Reading.Loop
