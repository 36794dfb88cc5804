/-
# SourceAtlas.Proofs.Reading.Orderly — no file is lost, doubled or given up unread.

At every moment of a run each file has just one place: it is to be submitted, pending, skipped, or
it has a result; and it has just one live ticket, or none while it is to be submitted (`Orderly`).
What a file's result is tells whether it was given up: then it is empty and stays so, and otherwise
it is what the ended read has found.  Every step keeps a loop orderly (`Orderly.moves`).
-/
import Mathlib.Data.List.Nodup
import SourceAtlas.Proofs.Reading.Tickets

namespace SourceAtlas.Reading.Loop

variable {jobs : List Job} {limit : Option Nat} {loop next : Loop} {number : Nat} {ticket : Ticket}
  {stage : Ticket.Stage} {path : String}

/-! ## Orderly loops -/

/-- **`Orderly jobs loop phase`** — in a phase of the loop, every file is in just one place, and
results tell the truth. -/
structure Orderly (jobs : List Job) (loop : Loop) (phase : Phase) : Prop where
  known : ∀ ticket ∈ loop.tickets, ticket.job ∈ jobs
  knownMoved : ∀ job ∈ phase.moved, job ∈ jobs
  /-- No ticket is of readers yet to come. -/
  numbered : ∀ ticket ∈ loop.tickets, ticket.readers ≤ loop.readers
  /-- Each file is to be submitted or has a live ticket, not both and not two. -/
  single : (livePaths loop.tickets ++ phase.moved.map (·.path)).Perm (jobs.map (·.path))
  /-- Each file has a result, is skipped, has a pending ticket, or is to be submitted. -/
  placed : (loop.results.map (·.1) ++ (loop.skipped ++
    (pathsOf loop.tickets (loop.pending ++ phase.fresh) ++ phase.moved.map (·.path)))).Perm
      (jobs.map (·.path))
  /-- Tickets that are pending have been issued and not taken back. -/
  issued : ∀ number ∈ loop.pending ++ phase.fresh, ∃ ticket,
    loop.tickets[number]? = some ticket ∧ ticket.stage.live = true
  /-- The loop looks at each pending ticket once. -/
  held : (phase.stalled ++ phase.left).Nodup ∧
    ∀ number ∈ phase.stalled ++ phase.left, number ∈ loop.pending
  /-- The time is noted of the reads that have begun. -/
  started : ∀ path, path ∈ loop.begun.map (·.1) ↔
    ∃ ticket ∈ loop.tickets, ticket.job.path = path ∧ ticket.stage.started = true
  /-- A read that has ended has found what the file's read finds, or the scan called off. -/
  ended : ∀ ticket ∈ loop.tickets, ∀ found, ticket.stage = .ended found →
    found = none ∧ loop.calledOff = true ∨
      found.isSome = true ∧ ticket.job.outcome.specifiers? ticket.job.language = found
  skipped : loop.skipped ≠ [] → loop.calledOff = true
  /-- The result of a file that was given up is empty, and that of another is what was found. -/
  told : ∀ result ∈ loop.results,
    result.1 ∈ loop.abandoned ∧ result.2 = OrderedSet.empty ∨
      result.1 ∉ loop.abandoned ∧ ∃ ticket ∈ loop.tickets,
        ticket.job.path = result.1 ∧ ticket.stage = .ended (some result.2)
  /-- What is given up has its result, or is about to get it. -/
  given : ∀ path ∈ loop.abandoned, (path, OrderedSet.empty) ∈ loop.results ∨
    ∃ number ∈ phase.stalled, pathOf loop.tickets number = some path
  doomed : ∀ number ∈ phase.stalled, ∃ path ∈ loop.abandoned, pathOf loop.tickets number = some path
  /-- Tickets are judged by a time that has come. -/
  timely : ∀ time, phase.time? = some time → time ≤ loop.now
  stopped : phase = .stopped → loop.pending = [] ∨ loop.calledOff = true

theorem orderly_ofJobs (jobs : List Job) : Orderly jobs (ofJobs jobs) (.submitting jobs []) where
  known := nofun
  knownMoved := fun _ hjob => hjob
  numbered := nofun
  single := List.Perm.refl _
  placed := List.Perm.refl _
  issued := nofun
  held := ⟨List.nodup_nil, nofun⟩
  started := fun _ => ⟨nofun, nofun⟩
  ended := nofun
  skipped := fun h => absurd rfl h
  told := nofun
  given := nofun
  doomed := nofun
  timely := nofun
  stopped := nofun

namespace Orderly

variable {phase : Phase}

section Facts

variable (h : Orderly jobs loop phase) (hjobs : (jobs.map (·.path)).Nodup)
include h hjobs

/-- No two live tickets are of one file. -/
theorem nodup_livePaths : (livePaths loop.tickets).Nodup :=
  (List.nodup_append.mp (h.single.nodup_iff.mpr hjobs)).1

theorem eq_of_path {other : Ticket} (hticket : ticket ∈ loop.tickets) (hother : other ∈ loop.tickets)
    (hlive : ticket.stage.live = true) (hlive' : other.stage.live = true)
    (hpath : ticket.job.path = other.job.path) : ticket = other :=
  List.inj_on_of_nodup_map (h.nodup_livePaths hjobs) (List.mem_filter.mpr ⟨hticket, hlive⟩)
    (List.mem_filter.mpr ⟨hother, hlive'⟩) hpath

/-- A file whose ticket is pending has no result yet. -/
theorem not_mem_results (hpending : number ∈ loop.pending)
    (hpath : pathOf loop.tickets number = some path) : path ∉ loop.results.map (·.1) := by
  intro hresult
  have hmem : path ∈ pathsOf loop.tickets (loop.pending ++ phase.fresh) :=
    List.mem_filterMap.mpr ⟨number, List.mem_append_left _ hpending, hpath⟩
  obtain ⟨-, -, hdisjoint⟩ := List.nodup_append.mp (h.placed.nodup_iff.mpr hjobs)
  exact hdisjoint path hresult path
    (List.mem_append_right _ (List.mem_append_left _ hmem)) rfl

/-- No two pending tickets are of one file. -/
theorem nodup_pathsOf : (pathsOf loop.tickets loop.pending).Nodup := by
  obtain ⟨-, hrest, -⟩ := List.nodup_append.mp (h.placed.nodup_iff.mpr hjobs)
  obtain ⟨-, hrest, -⟩ := List.nodup_append.mp hrest
  obtain ⟨hpaths, -, -⟩ := List.nodup_append.mp hrest
  unfold pathsOf at hpaths ⊢
  rw [List.filterMap_append] at hpaths
  exact (List.nodup_append.mp hpaths).1

theorem nodup_map_pathOf :
    (loop.pending.map fun number => (pathOf loop.tickets number).getD "").Nodup := by
  have hmap : pathsOf loop.tickets loop.pending =
      loop.pending.map fun number => (pathOf loop.tickets number).getD "" := by
    unfold pathsOf
    rw [← List.filterMap_eq_map]
    refine List.filterMap_congr fun number hnumber => ?_
    obtain ⟨ticket, has, -⟩ := h.issued number (List.mem_append_left _ hnumber)
    rw [pathOf_of_has has]
    show some _ = some ((pathOf loop.tickets number).getD "")
    rw [pathOf_of_has has]
    rfl
  rw [← hmap]
  exact h.nodup_pathsOf hjobs

/-- No ticket is pending twice. -/
theorem nodup_pending : loop.pending.Nodup :=
  (h.nodup_map_pathOf hjobs).of_map

/-- A pending ticket is known by its path. -/
theorem eq_of_pathOf {other : Nat} (hnumber : number ∈ loop.pending) (hother : other ∈ loop.pending)
    (hpath : pathOf loop.tickets number = pathOf loop.tickets other) : number = other :=
  List.inj_on_of_nodup_map (h.nodup_map_pathOf hjobs) hnumber hother (congrArg (·.getD "") hpath)

/-- The pending tickets without one are the others. -/
theorem mem_erase {other : Nat} :
    other ∈ loop.pending.erase number ↔ other ≠ number ∧ other ∈ loop.pending :=
  (h.nodup_pending hjobs).mem_erase_iff

/-- Of the tickets that the loop looks at, those behind the first stay pending without the first. -/
theorem held_tail {rest : List Nat} (hheld : (number :: rest).Nodup ∧
    ∀ other ∈ number :: rest, other ∈ loop.pending) :
    rest.Nodup ∧ ∀ other ∈ rest, other ∈ loop.pending.erase number := by
  obtain ⟨hfirst, hrest⟩ := List.nodup_cons.mp hheld.1
  refine ⟨hrest, fun other hother => (h.mem_erase hjobs).mpr ⟨?_, ?_⟩⟩
  · rintro rfl
    exact hfirst hother
  · exact hheld.2 other (List.mem_cons_of_mem _ hother)

end Facts

/-! ## Steps -/

/-- Turning to another phase keeps order. -/
theorem turn (h : Orderly jobs loop phase) (hjobs : (jobs.map (·.path)).Nodup) {turned : Phase}
    {readers : Nat} (newest : loop.readers ≤ readers) (moved : turned.moved = phase.moved)
    (fresh : turned.fresh = phase.fresh) (stalled : turned.stalled = phase.stalled)
    (left : turned.left.Sublist phase.left ∨ phase.stalled = [] ∧ turned.left = loop.pending)
    (time : ∀ time, turned.time? = some time → phase.time? = some time ∨ time = loop.now)
    (stopped : turned = .stopped → phase = .stopped ∨ loop.pending = [] ∨ loop.calledOff = true) :
    Orderly jobs { loop with phase := turned, readers } turned where
  known := h.known
  knownMoved := by
    rw [moved]
    exact h.knownMoved
  numbered := fun ticket hticket => Nat.le_trans (h.numbered ticket hticket) newest
  single := by
    rw [moved]
    exact h.single
  placed := by
    rw [moved, fresh]
    exact h.placed
  issued := by
    rw [fresh]
    exact h.issued
  held := by
    rw [stalled]
    rcases left with hsub | ⟨hnone, hall⟩
    · have hsub' := (List.Sublist.refl phase.stalled).append hsub
      exact ⟨hsub'.nodup h.held.1, fun number hnumber => h.held.2 number (hsub'.subset hnumber)⟩
    · rw [hnone, hall]
      exact ⟨h.nodup_pending hjobs, fun number hnumber => hnumber⟩
  started := h.started
  ended := h.ended
  skipped := h.skipped
  told := h.told
  given := by
    rw [stalled]
    exact h.given
  doomed := by
    rw [stalled]
    exact h.doomed
  timely := by
    intro now htime
    rcases time now htime with hbefore | rfl
    · exact h.timely now hbefore
    · exact Nat.le_refl _
  stopped := by
    intro hstopped
    rcases stopped hstopped with hbefore | hends
    · exact h.stopped hbefore
    · exact hends

/-- A reader that moves a ticket on keeps order. -/
theorem work (h : Orderly jobs loop phase) {begun : List (String × Nat)}
    (has : loop.tickets[number]? = some ticket) (was : ticket.stage.live = true)
    (undone : ticket.stage.done = false) (live : stage.live = true)
    (started : begun = loop.begun ∧ stage.started = ticket.stage.started ∨
      begun = (ticket.job.path, loop.now) :: loop.begun ∧ stage.started = true)
    (found : ∀ found, stage = .ended found → found = none ∧ loop.calledOff = true ∨
      found.isSome = true ∧ ticket.job.outcome.specifiers? ticket.job.language = found) :
    Orderly jobs { loop.setStage number stage with begun } phase := by
  have hticket : ticket ∈ loop.tickets := List.mem_of_getElem? has
  have hlive : livePaths (loop.setStage number stage).tickets = livePaths loop.tickets := by
    obtain ⟨before, after, hbefore, hafter⟩ := exists_split has stage
    rw [hbefore, hafter, livePaths_append_cons, livePaths_append_cons, was, live]
  refine ⟨?known, h.knownMoved, ?numbered, ?single, ?placed, ?issued, h.held, ?started, ?ended,
    h.skipped, ?told, ?given, ?doomed, h.timely, h.stopped⟩
  case known => exact forall_mem_setStage has (h.known ticket hticket) h.known
  case numbered => exact forall_mem_setStage has (h.numbered ticket hticket) h.numbered
  case single =>
    show (livePaths (loop.setStage number stage).tickets ++ _).Perm _
    rw [hlive]
    exact h.single
  case placed =>
    show (loop.results.map Prod.fst ++ (loop.skipped ++
      (pathsOf (loop.setStage number stage).tickets _ ++ _))).Perm _
    rw [pathsOf_setStage]
    exact h.placed
  case issued =>
    intro other hother
    obtain ⟨t, ht, htlive⟩ := h.issued other hother
    show ∃ t, (loop.setStage number stage).tickets[other]? = some t ∧ _
    rw [getElem?_setStage, ht]
    refine ⟨_, rfl, ?_⟩
    show (if number = other then { t with stage } else t).stage.live = true
    split
    · exact live
    · exact htlive
  case started =>
    intro path
    show path ∈ begun.map (·.1) ↔ _
    constructor
    · intro hpath
      rcases started with ⟨rfl, hsame⟩ | ⟨rfl, hbegun⟩
      · obtain ⟨t, ht, htpath, htstarted⟩ := (h.started path).mp hpath
        rcases mem_setStage_of_mem has stage ht with rfl | ht
        · exact ⟨_, mem_setStage_self has stage, htpath, hsame.trans htstarted⟩
        · exact ⟨t, ht, htpath, htstarted⟩
      · rcases List.mem_cons.mp hpath with rfl | hpath
        · exact ⟨_, mem_setStage_self has stage, rfl, hbegun⟩
        · obtain ⟨t, ht, htpath, htstarted⟩ := (h.started path).mp hpath
          rcases mem_setStage_of_mem has stage ht with rfl | ht
          · exact ⟨_, mem_setStage_self has stage, htpath, hbegun⟩
          · exact ⟨t, ht, htpath, htstarted⟩
    · rintro ⟨t, ht, rfl, htstarted⟩
      rcases mem_of_mem_setStage has ht with rfl | ht
      · rcases started with ⟨rfl, hsame⟩ | ⟨rfl, -⟩
        · exact (h.started _).mpr ⟨ticket, hticket, rfl, hsame.symm.trans htstarted⟩
        · exact List.mem_cons_self
      · have hbefore := (h.started _).mpr ⟨t, ht, rfl, htstarted⟩
        rcases started with ⟨rfl, -⟩ | ⟨rfl, -⟩
        · exact hbefore
        · exact List.mem_cons_of_mem _ hbefore
  case ended => exact forall_mem_setStage has found h.ended
  case told =>
    intro result hresult
    refine (h.told result hresult).imp_right ?_
    rintro ⟨hnot, t, ht, hpath, hstage⟩
    exact ⟨hnot, t, mem_setStage_of_done has undone stage ht (by rw [hstage]; rfl), hpath, hstage⟩
  case given =>
    intro path hpath
    refine (h.given path hpath).imp_right ?_
    rintro ⟨other, hother, hof⟩
    exact ⟨other, hother, (pathOf_setStage loop number stage other).trans hof⟩
  case doomed =>
    intro other hother
    obtain ⟨path, hpath, hof⟩ := h.doomed other hother
    exact ⟨path, hpath, (pathOf_setStage loop number stage other).trans hof⟩

/-- Submitting a file keeps order. -/
theorem submit {job : Job} {rest : List Job} {fresh : List Nat}
    (h : Orderly jobs loop (.submitting (job :: rest) fresh)) :
    Orderly jobs
      { loop with
        tickets := loop.tickets ++ [⟨job, loop.readers, .queued⟩]
        phase := .submitting rest (fresh ++ [loop.tickets.length]) }
      (.submitting rest (fresh ++ [loop.tickets.length])) := by
  -- tickets keep their numbers
  have hkeeps : ∀ number ∈ loop.pending ++ fresh,
      (loop.tickets ++ [⟨job, loop.readers, .queued⟩])[number]? = loop.tickets[number]? := by
    intro number hnumber
    obtain ⟨ticket, has, -⟩ := h.issued number hnumber
    exact List.getElem?_append_left (List.getElem?_eq_some_iff.mp has).1
  have hnew : (loop.tickets ++ [⟨job, loop.readers, .queued⟩])[loop.tickets.length]? =
      some ⟨job, loop.readers, .queued⟩ := List.getElem?_concat_length
  refine ⟨?known, fun job' hjob' => h.knownMoved job' (List.mem_cons_of_mem _ hjob'), ?numbered,
    ?single, ?placed, ?issued, ⟨List.nodup_nil, nofun⟩, ?started, ?ended, h.skipped, ?told, ?given,
    nofun, nofun, nofun⟩
  case known =>
    intro t ht
    rcases List.mem_append.mp ht with ht | ht
    · exact h.known t ht
    · rw [List.mem_singleton.mp ht]
      exact h.knownMoved job List.mem_cons_self
  case numbered =>
    intro t ht
    rcases List.mem_append.mp ht with ht | ht
    · exact h.numbered t ht
    · obtain rfl := List.mem_singleton.mp ht
      exact Nat.le_refl _
  case single =>
    have hlive : livePaths (loop.tickets ++ [⟨job, loop.readers, .queued⟩]) =
        livePaths loop.tickets ++ [job.path] := livePaths_append_cons loop.tickets [] _
    show (livePaths (loop.tickets ++ _) ++ rest.map (·.path)).Perm _
    rw [hlive, List.append_assoc]
    exact h.single
  case placed =>
    have hpaths : pathsOf (loop.tickets ++ [⟨job, loop.readers, .queued⟩])
        (loop.pending ++ (fresh ++ [loop.tickets.length])) =
          pathsOf loop.tickets (loop.pending ++ fresh) ++ [job.path] := by
      unfold pathsOf
      rw [← List.append_assoc, List.filterMap_append]
      congr 1
      · refine List.filterMap_congr fun number hnumber => ?_
        unfold pathOf
        rw [hkeeps number hnumber]
      · exact List.filterMap_cons_some (pathOf_of_has hnew)
    show (loop.results.map Prod.fst ++ (loop.skipped ++
      (pathsOf (loop.tickets ++ [⟨job, loop.readers, .queued⟩])
        (loop.pending ++ (fresh ++ [loop.tickets.length])) ++ rest.map (·.path)))).Perm _
    rw [hpaths, List.append_assoc (pathsOf _ _)]
    exact h.placed
  case issued =>
    intro number hnumber
    have hsplit : number ∈ loop.pending ++ fresh ∨ number = loop.tickets.length := by
      rcases List.mem_append.mp hnumber with hpending | hfresh
      · exact Or.inl (List.mem_append_left _ hpending)
      · rcases List.mem_append.mp hfresh with hfresh | hlast
        · exact Or.inl (List.mem_append_right _ hfresh)
        · exact Or.inr (List.mem_singleton.mp hlast)
    rcases hsplit with hold | rfl
    · obtain ⟨t, has, hlive⟩ := h.issued number hold
      exact ⟨t, (hkeeps number hold).trans has, hlive⟩
    · exact ⟨_, hnew, rfl⟩
  case started =>
    intro path
    refine (h.started path).trans ⟨?_, ?_⟩
    · rintro ⟨t, ht, hrest⟩
      exact ⟨t, List.mem_append_left _ ht, hrest⟩
    · rintro ⟨t, ht, hpath, hstarted⟩
      rcases List.mem_append.mp ht with ht | ht
      · exact ⟨t, ht, hpath, hstarted⟩
      · rw [List.mem_singleton.mp ht] at hstarted
        cases hstarted
  case ended =>
    intro t ht found hstage
    rcases List.mem_append.mp ht with ht | ht
    · exact h.ended t ht found hstage
    · rw [List.mem_singleton.mp ht] at hstage
      cases hstage
  case told =>
    intro result hresult
    refine (h.told result hresult).imp_right ?_
    rintro ⟨hnot, t, ht, hrest⟩
    exact ⟨hnot, t, List.mem_append_left _ ht, hrest⟩
  case given =>
    intro path hpath
    exact (h.given path hpath).imp_right nofun

/-- What was submitted becomes pending. -/
theorem submitted {fresh : List Nat} (h : Orderly jobs loop (.submitting [] fresh)) :
    Orderly jobs { loop with pending := loop.pending ++ fresh, phase := .head } .head := by
  refine ⟨h.known, nofun, h.numbered, h.single, ?placed, ?issued, ⟨List.nodup_nil, nofun⟩,
    h.started, h.ended, h.skipped, h.told, h.given, nofun, nofun, nofun⟩
  case placed =>
    show (loop.results.map Prod.fst ++ (loop.skipped ++
      (pathsOf loop.tickets ((loop.pending ++ fresh) ++ []) ++ []))).Perm _
    rw [List.append_nil (loop.pending ++ fresh)]
    exact h.placed
  case issued =>
    show ∀ number ∈ (loop.pending ++ fresh) ++ [], _
    rw [List.append_nil]
    exact h.issued

/-- A read that found the scan called off is skipped, in order. -/
theorem skip {rest : List Nat} (h : Orderly jobs loop (.collecting (number :: rest)))
    (has : loop.tickets[number]? = some ticket) (pending : number ∈ loop.pending)
    (ended : ticket.stage = .ended none) :
    Orderly jobs
      { loop.settle number with
        skipped := ticket.job.path :: loop.skipped
        phase := .collecting rest }
      (.collecting rest) := by
  refine ⟨h.known, nofun, h.numbered, h.single, ?placed, ?issued, ⟨List.nodup_nil, nofun⟩,
    h.started, h.ended, ?skipped, h.told, h.given, nofun, nofun, nofun⟩
  case placed =>
    exact (List.Perm.append_left _ (perm_skip (pathOf_of_has has) pending)).trans h.placed
  case issued => exact fun other hother => h.issued other (mem_of_mem_settle hother)
  case skipped =>
    intro _
    rcases h.ended ticket (List.mem_of_getElem? has) none ended with ⟨-, hoff⟩ | ⟨hsome, -⟩
    · exact hoff
    · cases hsome

/-- Taking in what a read has found keeps order. -/
theorem collect {rest : List Nat} {found : NameSet}
    (h : Orderly jobs loop (.collecting (number :: rest))) (hjobs : (jobs.map (·.path)).Nodup)
    (has : loop.tickets[number]? = some ticket) (pending : number ∈ loop.pending)
    (ended : ticket.stage = .ended (some found)) :
    Orderly jobs
      { loop.settle number with
        results := (ticket.job.path, found) :: loop.results
        phase := .collecting rest }
      (.collecting rest) := by
  have hpath := pathOf_of_has has
  -- the file was not given up before, or it would have a result already
  have hnot : ticket.job.path ∉ loop.abandoned := by
    intro habandoned
    rcases h.given _ habandoned with hresult | ⟨other, hother, -⟩
    · exact h.not_mem_results hjobs pending hpath (List.mem_map_of_mem hresult)
    · exact absurd hother List.not_mem_nil
  refine ⟨h.known, nofun, h.numbered, h.single, ?placed, ?issued, ⟨List.nodup_nil, nofun⟩,
    h.started, h.ended, h.skipped, ?told, ?given, nofun, nofun, nofun⟩
  case placed => exact (perm_settle hpath pending).trans h.placed
  case issued => exact fun other hother => h.issued other (mem_of_mem_settle hother)
  case told =>
    intro result hresult
    rcases List.mem_cons.mp hresult with rfl | hresult
    · exact Or.inr ⟨hnot, ticket, List.mem_of_getElem? has, rfl, ended⟩
    · exact h.told result hresult
  case given =>
    intro path habandoned
    exact (h.given path habandoned).imp_left (List.mem_cons_of_mem _)

/-- Judging a ticket stalled keeps order. -/
theorem judge {time : Nat} {rest stalled : List Nat}
    (h : Orderly jobs loop (.judging time (number :: rest) stalled))
    (hjobs : (jobs.map (·.path)).Nodup) (has : loop.tickets[number]? = some ticket) :
    Orderly jobs
      { loop with
        abandoned := ticket.job.path :: loop.abandoned
        phase := .judging time rest (stalled ++ [number]) }
      (.judging time rest (stalled ++ [number])) := by
  have hpath := pathOf_of_has has
  have hpending : number ∈ loop.pending :=
    h.held.2 number (List.mem_append_right _ List.mem_cons_self)
  refine ⟨h.known, nofun, h.numbered, h.single, h.placed, h.issued, ?held, h.started, h.ended,
    h.skipped, ?told, ?given, ?doomed, h.timely, nofun⟩
  case held =>
    show (stalled ++ [number] ++ rest).Nodup ∧ ∀ other ∈ stalled ++ [number] ++ rest, _
    rw [List.append_assoc]
    exact h.held
  case told =>
    intro result hresult
    rcases h.told result hresult with ⟨hin, hempty⟩ | ⟨hnot, hticket⟩
    · exact Or.inl ⟨List.mem_cons_of_mem _ hin, hempty⟩
    · -- a file that has a result is not pending, so it is not the one judged
      refine Or.inr ⟨fun hin => ?_, hticket⟩
      rcases List.mem_cons.mp hin with hsame | hin
      · exact h.not_mem_results hjobs hpending hpath (hsame ▸ List.mem_map_of_mem hresult)
      · exact hnot hin
  case given =>
    intro path hin
    rcases List.mem_cons.mp hin with rfl | hin
    · exact Or.inr ⟨number, List.mem_append_right _ List.mem_cons_self, hpath⟩
    · refine (h.given path hin).imp_right ?_
      rintro ⟨other, hother, hof⟩
      exact ⟨other, List.mem_append_left _ hother, hof⟩
  case doomed =>
    intro other hother
    rcases List.mem_append.mp hother with hother | hother
    · obtain ⟨path, hin, hof⟩ := h.doomed other hother
      exact ⟨path, List.mem_cons_of_mem _ hin, hof⟩
    · rw [List.mem_singleton.mp hother]
      exact ⟨_, List.mem_cons_self, hpath⟩

/-- Giving a read up keeps order. -/
theorem abandon {rest : List Nat} (h : Orderly jobs loop (.abandoning (number :: rest)))
    (hjobs : (jobs.map (·.path)).Nodup) (has : loop.tickets[number]? = some ticket) :
    Orderly jobs
      { loop.settle number with
        results := (ticket.job.path, OrderedSet.empty) :: loop.results
        phase := .abandoning rest }
      (.abandoning rest) := by
  have hpath := pathOf_of_has has
  have hheld : (number :: rest).Nodup ∧ ∀ other ∈ number :: rest, other ∈ loop.pending := by
    have hheld := h.held
    rwa [show (Phase.abandoning (number :: rest)).left = [] from rfl, List.append_nil] at hheld
  have hpending : number ∈ loop.pending := hheld.2 number List.mem_cons_self
  refine ⟨h.known, nofun, h.numbered, h.single, ?placed, ?issued, ?held, h.started, h.ended,
    h.skipped, ?told, ?given, fun other hother => h.doomed other (List.mem_cons_of_mem _ hother), nofun,
    nofun⟩
  case placed => exact (perm_settle hpath hpending).trans h.placed
  case issued => exact fun other hother => h.issued other (mem_of_mem_settle hother)
  case held =>
    show (rest ++ []).Nodup ∧ ∀ other ∈ rest ++ [], other ∈ loop.pending.erase number
    rw [List.append_nil]
    exact h.held_tail hjobs hheld
  case told =>
    intro result hresult
    rcases List.mem_cons.mp hresult with rfl | hresult
    · obtain ⟨path, hin, hof⟩ := h.doomed number List.mem_cons_self
      rw [Option.some.inj (hpath.symm.trans hof)]
      exact Or.inl ⟨hin, rfl⟩
    · exact h.told result hresult
  case given =>
    intro path hin
    rcases h.given path hin with hresult | ⟨other, hother, hof⟩
    · exact Or.inl (List.mem_cons_of_mem _ hresult)
    · rcases List.mem_cons.mp hother with rfl | hother
      · rw [Option.some.inj (hpath.symm.trans hof)]
        exact Or.inl List.mem_cons_self
      · exact Or.inr ⟨other, hother, hof⟩

/-- Taking a queued ticket back keeps order. -/
theorem withdraw {rest : List Nat} {moved : List Job} {job : Job} {readers : Nat}
    (h : Orderly jobs loop (.withdrawing (number :: rest) moved))
    (hjobs : (jobs.map (·.path)).Nodup) (has : loop.tickets[number]? = some ⟨job, readers, .queued⟩) :
    Orderly jobs
      { (loop.setStage number .withdrawn).settle number with
        phase := .withdrawing rest (moved ++ [job]) }
      (.withdrawing rest (moved ++ [job])) := by
  have hpath := pathOf_of_has has
  have hpending : number ∈ loop.pending := h.held.2 number List.mem_cons_self
  have hticket := List.mem_of_getElem? has
  refine ⟨?known, ?knownMoved, ?numbered, ?single, ?placed, ?issued, h.held_tail hjobs h.held,
    ?started, ?ended, h.skipped, ?told, ?given, nofun, nofun, nofun⟩
  case known => exact forall_mem_setStage has (h.known ⟨job, readers, .queued⟩ hticket) h.known
  case knownMoved =>
    intro job' hjob'
    rcases List.mem_append.mp hjob' with hjob' | hjob'
    · exact h.knownMoved job' hjob'
    · rw [List.mem_singleton.mp hjob']
      exact h.known _ hticket
  case numbered =>
    exact forall_mem_setStage has (h.numbered ⟨job, readers, .queued⟩ hticket) h.numbered
  case single =>
    obtain ⟨before, after, hbefore, hafter⟩ := exists_split has .withdrawn
    refine List.Perm.trans ?_ h.single
    show (livePaths (loop.setStage number .withdrawn).tickets ++
      (moved ++ [job]).map (·.path)).Perm (livePaths loop.tickets ++ moved.map (·.path))
    rw [hbefore, hafter, livePaths_append_cons, livePaths_append_cons, List.map_append]
    show (livePaths before ++ livePaths after ++ (moved.map (·.path) ++ [job.path])).Perm
      (livePaths before ++ (job.path :: livePaths after) ++ moved.map (·.path))
    rw [List.append_assoc, List.append_assoc]
    refine List.Perm.append_left _ ?_
    rw [← List.append_assoc]
    exact List.perm_append_singleton _ _
  case placed =>
    refine List.Perm.trans (List.Perm.append_left _ (List.Perm.append_left _ ?_)) h.placed
    show (pathsOf (loop.setStage number .withdrawn).tickets (loop.pending.erase number ++ []) ++
      (moved ++ [job]).map (·.path)).Perm
        (pathsOf loop.tickets (loop.pending ++ []) ++ moved.map (·.path))
    rw [List.append_nil, List.append_nil, pathsOf_setStage, List.map_append, ← List.append_assoc]
    refine (List.perm_append_singleton _ _).trans ?_
    exact (pathsOf_perm_erase hpath hpending).append_right _
  case issued =>
    intro other hother
    have hleft := (List.mem_append.mp hother).resolve_right List.not_mem_nil
    obtain ⟨hne, hmem⟩ := (h.mem_erase hjobs).mp hleft
    obtain ⟨t, ht, hlive⟩ := h.issued other (List.mem_append_left _ hmem)
    exact ⟨t, (getElem?_setStage_of_ne loop _ hne).trans ht, hlive⟩
  case started =>
    intro path
    refine (h.started path).trans ⟨?_, ?_⟩
    · rintro ⟨t, ht, hof, hstarted⟩
      rcases mem_setStage_of_mem has .withdrawn ht with rfl | ht
      · cases hstarted
      · exact ⟨t, ht, hof, hstarted⟩
    · rintro ⟨t, ht, hof, hstarted⟩
      rcases mem_of_mem_setStage has ht with rfl | ht
      · cases hstarted
      · exact ⟨t, ht, hof, hstarted⟩
  case ended => exact forall_mem_setStage has nofun h.ended
  case told =>
    intro result hresult
    refine (h.told result hresult).imp_right ?_
    rintro ⟨hnot, t, ht, hof, hstage⟩
    exact ⟨hnot, t, mem_setStage_of_done has rfl .withdrawn ht (by rw [hstage]; rfl), hof, hstage⟩
  case given => exact fun path hin => (h.given path hin).imp_right nofun

/-- **Every step keeps a loop orderly.** -/
theorem moves (h : Orderly jobs loop loop.phase) (hjobs : (jobs.map (·.path)).Nodup)
    (hmoves : Moves limit loop next) :
    Orderly jobs next next.phase := by
  cases hmoves with
  | turn newest moved fresh stalled left time stopped =>
      exact h.turn hjobs newest moved fresh stalled left time stopped
  | pass ticks =>
      exact ⟨h.known, h.knownMoved, h.numbered, h.single, h.placed, h.issued, h.held, h.started,
        h.ended, h.skipped, h.told, h.given, h.doomed,
        fun time htime => Nat.le_trans (h.timely time htime) (Nat.le_add_right _ _), h.stopped⟩
  | callOff =>
      exact ⟨h.known, h.knownMoved, h.numbered, h.single, h.placed, h.issued, h.held, h.started,
        fun t ht found hstage => (h.ended t ht found hstage).imp_left fun hnone => ⟨hnone.1, rfl⟩,
        fun _ => rfl, h.told, h.given, h.doomed, h.timely, fun _ => Or.inr rfl⟩
  | work has was undone live started found => exact h.work has was undone live started found
  | submit phase => exact submit (phase ▸ h)
  | submitted phase => exact submitted (phase ▸ h)
  | collect phase has pending ended => exact collect (phase ▸ h) hjobs has pending ended
  | skip phase has pending ended => exact skip (phase ▸ h) has pending ended
  | judge phase limited has late => exact judge (phase ▸ h) hjobs has
  | abandon phase has => exact abandon (phase ▸ h) hjobs has
  | withdraw phase has => exact withdraw (phase ▸ h) hjobs has

/-- **Every run keeps a loop orderly.** -/
theorem run (h : Orderly jobs loop loop.phase) (hjobs : (jobs.map (·.path)).Nodup) (workers : Nat)
    (limit : Option Nat) (events : List Event) :
    Orderly jobs (loop.run workers limit events) (loop.run workers limit events).phase := by
  induction events generalizing loop with
  | nil => exact h
  | cons event rest ih => exact ih (h.moves hjobs (moves_step workers limit loop event))

end Orderly

end SourceAtlas.Reading.Loop
