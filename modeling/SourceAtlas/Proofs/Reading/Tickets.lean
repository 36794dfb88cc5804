/-
# SourceAtlas.Proofs.Reading.Tickets — tickets, their numbers and their paths.

A ticket keeps its number and its path while its stage changes.  So a change of stage touches the
one ticket and no other (`mem_of_mem_setStage`, `mem_setStage_of_mem`), and the paths behind numbers
stay (`pathsOf_setStage`); settling a pending ticket takes just its path out (`perm_settle`).
-/
import Mathlib.Data.List.Perm.Basic
import SourceAtlas.Proofs.Reading.Loop

namespace SourceAtlas.Reading.Loop

variable {loop : Loop}

/-! ## Stages -/

theorem live_of_started {stage : Ticket.Stage} (h : stage.started = true) : stage.live = true := by
  cases stage with
  | withdrawn => cases h
  | _ => rfl

theorem started_of_done {stage : Ticket.Stage} (h : stage.done = true) : stage.started = true := by
  cases stage with
  | ended found => rfl
  | _ => cases h

/-! ## Tickets and their paths -/

/-- The path of a ticket. -/
def pathOf (tickets : List Ticket) (number : Nat) : Option String :=
  tickets[number]?.map (·.job.path)

/-- The paths of tickets. -/
def pathsOf (tickets : List Ticket) (numbers : List Nat) : List String :=
  numbers.filterMap (pathOf tickets)

/-- The paths of the tickets that have not been taken back. -/
def livePaths (tickets : List Ticket) : List String :=
  (tickets.filter (·.stage.live)).map (·.job.path)

variable {number : Nat} {ticket : Ticket} {stage : Ticket.Stage} {path : String}

theorem pathOf_of_has {tickets : List Ticket} (has : tickets[number]? = some ticket) :
    pathOf tickets number = some ticket.job.path := by
  unfold pathOf
  rw [has]
  rfl

/-- Another stage is put in the place of one ticket. -/
theorem exists_split (has : loop.tickets[number]? = some ticket) (stage : Ticket.Stage) :
    ∃ before after, loop.tickets = before ++ ticket :: after ∧
      (loop.setStage number stage).tickets = before ++ { ticket with stage } :: after := by
  obtain ⟨hlt, hget⟩ := List.getElem?_eq_some_iff.mp has
  obtain ⟨before, found, after, hsplit, hlength, hmodify⟩ :=
    List.exists_of_modify ({ · with stage } : Ticket → Ticket) hlt
  have hfound : found = ticket := by
    have h := has
    rw [hsplit, ← hlength, List.getElem?_append_right (Nat.le_refl _), Nat.sub_self] at h
    exact Option.some.inj h
  subst hfound
  exact ⟨before, after, hsplit, hmodify⟩

/-- A ticket is the one with another stage, or it was there before. -/
theorem mem_of_mem_setStage (has : loop.tickets[number]? = some ticket) {other : Ticket}
    (hother : other ∈ (loop.setStage number stage).tickets) :
    other = { ticket with stage } ∨ other ∈ loop.tickets := by
  obtain ⟨before, after, hbefore, hafter⟩ := exists_split has stage
  rw [hafter] at hother
  rw [hbefore]
  rcases List.mem_append.mp hother with hother | hother
  · exact Or.inr (List.mem_append_left _ hother)
  · rcases List.mem_cons.mp hother with rfl | hother
    · exact Or.inl rfl
    · exact Or.inr (List.mem_append_right _ (List.mem_cons_of_mem _ hother))

/-- A ticket keeps its stage, or it is the one with another stage. -/
theorem mem_setStage_of_mem (has : loop.tickets[number]? = some ticket) (stage : Ticket.Stage)
    {other : Ticket} (hother : other ∈ loop.tickets) :
    other = ticket ∨ other ∈ (loop.setStage number stage).tickets := by
  obtain ⟨before, after, hbefore, hafter⟩ := exists_split has stage
  rw [hbefore] at hother
  rw [hafter]
  rcases List.mem_append.mp hother with hother | hother
  · exact Or.inr (List.mem_append_left _ hother)
  · rcases List.mem_cons.mp hother with rfl | hother
    · exact Or.inl rfl
    · exact Or.inr (List.mem_append_right _ (List.mem_cons_of_mem _ hother))

/-- What holds of all tickets still does if it holds of the one with another stage. -/
theorem forall_mem_setStage {P : Ticket → Prop} (has : loop.tickets[number]? = some ticket)
    (hnew : P { ticket with stage }) (h : ∀ other ∈ loop.tickets, P other) :
    ∀ other ∈ (loop.setStage number stage).tickets, P other := by
  intro other hother
  rcases mem_of_mem_setStage has hother with rfl | hother
  · exact hnew
  · exact h other hother

/-- A ticket that has ended stays as it is while another one is moved. -/
theorem mem_setStage_of_done (has : loop.tickets[number]? = some ticket)
    (undone : ticket.stage.done = false) (stage : Ticket.Stage) {other : Ticket}
    (hother : other ∈ loop.tickets) (hdone : other.stage.done = true) :
    other ∈ (loop.setStage number stage).tickets := by
  rcases mem_setStage_of_mem has stage hother with rfl | hother
  · rw [hdone] at undone
    cases undone
  · exact hother

theorem mem_setStage_self (has : loop.tickets[number]? = some ticket) (stage : Ticket.Stage) :
    { ticket with stage } ∈ (loop.setStage number stage).tickets := by
  obtain ⟨before, after, -, hafter⟩ := exists_split has stage
  rw [hafter]
  exact List.mem_append_right _ List.mem_cons_self

theorem livePaths_append_cons (before after : List Ticket) (ticket : Ticket) :
    livePaths (before ++ ticket :: after) = livePaths before ++
      ((if ticket.stage.live then [ticket.job.path] else []) ++ livePaths after) := by
  unfold livePaths
  rw [List.filter_append, List.map_append, List.filter_cons]
  split
  · rfl
  · rfl

theorem getElem?_setStage (loop : Loop) (number : Nat) (stage : Ticket.Stage) (other : Nat) :
    (loop.setStage number stage).tickets[other]? =
      loop.tickets[other]?.map fun t => if number = other then { t with stage } else t := by
  unfold setStage
  simp only
  rw [List.getElem?_modify, Option.map_eq_map]

theorem getElem?_setStage_of_ne (loop : Loop) (stage : Ticket.Stage) {other : Nat}
    (hne : other ≠ number) : (loop.setStage number stage).tickets[other]? = loop.tickets[other]? := by
  rw [getElem?_setStage]
  simp only [if_neg (Ne.symm hne)]
  exact Option.map_id'

theorem pathOf_setStage (loop : Loop) (number : Nat) (stage : Ticket.Stage) (other : Nat) :
    pathOf (loop.setStage number stage).tickets other = pathOf loop.tickets other := by
  unfold pathOf
  rw [getElem?_setStage, Option.map_map]
  congr 1
  funext t
  show (if _ then _ else _ : Ticket).job.path = t.job.path
  split
  · rfl
  · rfl

theorem pathsOf_setStage (loop : Loop) (number : Nat) (stage : Ticket.Stage) (numbers : List Nat) :
    pathsOf (loop.setStage number stage).tickets numbers = pathsOf loop.tickets numbers :=
  List.filterMap_congr fun other _ => pathOf_setStage loop number stage other

/-- The pending tickets are any one of them and the others. -/
theorem pathsOf_perm_erase {tickets : List Ticket} {pending : List Nat}
    (hpath : pathOf tickets number = some path) (hpending : number ∈ pending) :
    (path :: pathsOf tickets (pending.erase number)).Perm (pathsOf tickets pending) := by
  have h := (List.perm_cons_erase hpending).filterMap (pathOf tickets)
  rw [List.filterMap_cons_some hpath] at h
  exact h.symm

/-- Of a pending ticket that is skipped, the path goes to the skipped ones. -/
theorem perm_skip {tickets : List Ticket} {pending : List Nat} {skipped moved : List String}
    (hpath : pathOf tickets number = some path) (hpending : number ∈ pending) :
    (path :: (skipped ++ (pathsOf tickets (pending.erase number ++ []) ++ moved))).Perm
      (skipped ++ (pathsOf tickets (pending ++ []) ++ moved)) := by
  rw [List.append_nil, List.append_nil]
  refine List.perm_middle.symm.trans (List.Perm.append_left _ ?_)
  exact (pathsOf_perm_erase hpath hpending).append_right _

/-- Of a pending ticket that is settled, the path goes to the results. -/
theorem perm_settle {tickets : List Ticket} {pending : List Nat} {results skipped moved : List String}
    (hpath : pathOf tickets number = some path) (hpending : number ∈ pending) :
    (path :: (results ++ (skipped ++ (pathsOf tickets (pending.erase number ++ []) ++ moved)))).Perm
      (results ++ (skipped ++ (pathsOf tickets (pending ++ []) ++ moved))) :=
  List.perm_middle.symm.trans (List.Perm.append_left _ (perm_skip hpath hpending))

theorem mem_of_mem_settle {pending : List Nat} {other : Nat}
    (hother : other ∈ pending.erase number ++ []) : other ∈ pending ++ [] := by
  rw [List.append_nil] at hother ⊢
  exact List.mem_of_mem_erase hother

end SourceAtlas.Reading.Loop
