/-
# SourceAtlas.Proofs.Reading.Passes — what the loop does when nothing comes between.

If readers, clock and signal are quiet, the loop goes through the tickets of a phase one after
another: it judges all pending tickets (`reaches_judged`), takes all queued ones back
(`reaches_withdrawn`) and submits all files that it has (`reaches_submitted`).
-/
import SourceAtlas.Proofs.Reading.Exact

namespace SourceAtlas.Reading.Loop

variable {workers : Nat} {limit : Option Nat} {loop next : Loop} {number : Nat} {ticket : Ticket}

/-! ## Runs -/

/-- **`Reaches workers limit loop next`** — some run leads from one state to another. -/
def Reaches (workers : Nat) (limit : Option Nat) (loop next : Loop) : Prop :=
  ∃ events, loop.run workers limit events = next

theorem Reaches.refl (loop : Loop) : Reaches workers limit loop loop :=
  ⟨[], rfl⟩

theorem Reaches.step (event : Event) :
    Reaches workers limit loop (loop.step workers limit event) :=
  ⟨[event], rfl⟩

theorem Reaches.trans {last : Loop} (h : Reaches workers limit loop next)
    (h' : Reaches workers limit next last) : Reaches workers limit loop last := by
  obtain ⟨events, rfl⟩ := h
  obtain ⟨events', rfl⟩ := h'
  exact ⟨events ++ events', List.foldl_append⟩

/-- The loop does the next thing. -/
theorem Reaches.proceed {seen : List Nat} (h : loop.proceed limit seen = next) :
    Reaches workers limit loop next :=
  ⟨[.proceed seen], h⟩

theorem Orderly.reaches {jobs : List Job} (h : Orderly jobs loop loop.phase)
    (hjobs : (jobs.map (·.path)).Nodup) (hreaches : Reaches workers limit loop next) :
    Orderly jobs next next.phase := by
  obtain ⟨events, rfl⟩ := hreaches
  exact h.run hjobs workers limit events

/-! ## Judging -/

/-- Whether a ticket is stalled at a time. -/
def late (bound : Nat) (loop : Loop) (time number : Nat) : Bool :=
  (loop.tickets[number]?.map (loop.stalled bound time)).getD false

/-- The loop judges all tickets that are left. -/
theorem reaches_judged {bound time : Nat} (left stalled : List Nat)
    (hphase : loop.phase = .judging time left stalled)
    (hissued : ∀ number ∈ left, ∃ ticket, loop.tickets[number]? = some ticket) :
    ∃ abandoned, Reaches workers (some bound) loop
      { loop with
        abandoned
        phase := .judging time [] (stalled ++ left.filter (loop.late bound time)) } := by
  induction left generalizing loop stalled with
  | nil =>
      refine ⟨loop.abandoned, [], ?_⟩
      show loop = { loop with phase := .judging time [] (stalled ++ []) }
      rw [List.append_nil, ← hphase]
  | cons number rest ih =>
      obtain ⟨ticket, has⟩ := hissued number List.mem_cons_self
      have hrest : ∀ other ∈ rest, ∃ ticket, loop.tickets[other]? = some ticket :=
        fun other hother => hissued other (List.mem_cons_of_mem _ hother)
      cases hlate : loop.stalled bound time ticket with
      | true =>
          have hstep : loop.proceed (some bound) [] =
              { loop with
                abandoned := ticket.job.path :: loop.abandoned
                phase := .judging time rest (stalled ++ [number]) } := by
            unfold proceed
            rw [hphase]
            simp only [has, hlate, if_true]
          have hkept : loop.late bound time number = true := by
            unfold late
            rw [has]
            exact hlate
          have hphase' : ({ loop with
              abandoned := ticket.job.path :: loop.abandoned
              phase := .judging time rest (stalled ++ [number]) } : Loop).phase =
                .judging time rest (stalled ++ [number]) := rfl
          obtain ⟨abandoned, hreaches⟩ := ih (stalled ++ [number]) hphase' hrest
          refine ⟨abandoned, (Reaches.proceed hstep).trans ?_⟩
          rw [List.filter_cons_of_pos hkept]
          rw [List.append_assoc] at hreaches
          exact hreaches
      | false =>
          have hstep : loop.proceed (some bound) [] =
              { loop with phase := .judging time rest stalled } := by
            unfold proceed
            rw [hphase]
            simp only [has, hlate]
            rfl
          have hdropped : ¬ loop.late bound time number = true := by
            unfold late
            rw [has]
            simp [hlate]
          have hphase' : ({ loop with phase := .judging time rest stalled } : Loop).phase =
              .judging time rest stalled := rfl
          obtain ⟨abandoned, hreaches⟩ := ih stalled hphase' hrest
          refine ⟨abandoned, (Reaches.proceed hstep).trans ?_⟩
          rw [List.filter_cons_of_neg hdropped]
          exact hreaches

/-! ## Taking back and submitting -/

/-- The files of tickets. -/
def jobsOf (tickets : List Ticket) (numbers : List Nat) : List Job :=
  numbers.filterMap fun number => tickets[number]?.map (·.job)

/-- The loop takes back all tickets, if all are queued. -/
theorem reaches_withdrawn (left : List Nat) (moved : List Job)
    (hphase : loop.phase = .withdrawing left moved) (hpending : loop.pending = left)
    (hdistinct : left.Nodup)
    (hqueued : ∀ number ∈ left, ∃ ticket, loop.tickets[number]? = some ticket ∧
      ticket.stage = .queued) :
    ∃ tickets, Reaches workers limit loop
      { loop with
        tickets
        pending := []
        phase := .withdrawing [] (moved ++ jobsOf loop.tickets left) } := by
  induction left generalizing loop moved with
  | nil =>
      refine ⟨loop.tickets, [], ?_⟩
      show loop = { loop with pending := [], phase := .withdrawing [] (moved ++ []) }
      rw [List.append_nil, ← hphase, ← hpending]
  | cons number rest ih =>
      obtain ⟨hfirst, hrest⟩ := List.nodup_cons.mp hdistinct
      obtain ⟨⟨job, readers, stage⟩, has, rfl⟩ := hqueued number List.mem_cons_self
      have hstep : loop.proceed limit [] =
          { (loop.setStage number .withdrawn).settle number with
            phase := .withdrawing rest (moved ++ [job]) } := by
        unfold proceed
        rw [hphase]
        simp only [has]
      -- the other tickets are as they were
      have hsame : ∀ other ∈ rest,
          (loop.setStage number .withdrawn).tickets[other]? = loop.tickets[other]? := by
        intro other hother
        refine getElem?_setStage_of_ne loop _ ?_
        rintro rfl
        exact hfirst hother
      have hphase' : ({ (loop.setStage number .withdrawn).settle number with
          phase := .withdrawing rest (moved ++ [job]) } : Loop).phase =
            .withdrawing rest (moved ++ [job]) := rfl
      have hpending' : loop.pending.erase number = rest := by
        rw [hpending, List.erase_cons_head]
      obtain ⟨tickets, hreaches⟩ := ih (moved ++ [job]) hphase' hpending' hrest
        fun other hother => by
          obtain ⟨ticket, hticket, hstage⟩ := hqueued other (List.mem_cons_of_mem _ hother)
          exact ⟨ticket, (hsame other hother).trans hticket, hstage⟩
      have hjobs : jobsOf loop.tickets (number :: rest) =
          job :: jobsOf (loop.setStage number .withdrawn).tickets rest := by
        unfold jobsOf
        rw [List.filterMap_cons_some (by rw [has]; rfl)]
        congr 1
        refine List.filterMap_congr fun other hother => ?_
        rw [hsame other hother]
      refine ⟨tickets, (Reaches.proceed hstep).trans ?_⟩
      rw [hjobs]
      rw [List.append_assoc] at hreaches
      exact hreaches

/-- The loop submits all files that it has. -/
theorem reaches_submitted (moved : List Job) (fresh : List Nat)
    (hphase : loop.phase = .submitting moved fresh) :
    Reaches workers limit loop
      { loop with
        tickets := loop.tickets ++ moved.map fun job => ⟨job, loop.readers, .queued⟩
        pending := loop.pending ++ (fresh ++ List.range' loop.tickets.length moved.length)
        phase := .head } := by
  induction moved generalizing loop fresh with
  | nil =>
      refine Reaches.proceed (?_ : loop.proceed limit [] = _)
      unfold proceed
      rw [hphase]
      simp
  | cons job rest ih =>
      have hstep : loop.proceed limit [] =
          { loop with
            tickets := loop.tickets ++ [⟨job, loop.readers, .queued⟩]
            phase := .submitting rest (fresh ++ [loop.tickets.length]) } := by
        unfold proceed
        rw [hphase]
      have hphase' : ({ loop with
          tickets := loop.tickets ++ [⟨job, loop.readers, .queued⟩]
          phase := .submitting rest (fresh ++ [loop.tickets.length]) } : Loop).phase =
            .submitting rest (fresh ++ [loop.tickets.length]) := rfl
      have hreaches : Reaches workers limit _ _ := ih (fresh ++ [loop.tickets.length]) hphase'
      refine (Reaches.proceed hstep).trans ?_
      simp only [List.append_assoc, List.length_append, List.length_singleton] at hreaches
      exact hreaches

end SourceAtlas.Reading.Loop
