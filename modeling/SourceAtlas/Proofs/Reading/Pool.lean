/-
# SourceAtlas.Proofs.Reading.Pool — what an event can do to a pool.

An event that fits its read moves it one stage on or settles it, and it touches no other read
(`Moves`).  So reads never go back a stage, and what is settled stays settled.  A pool is `Sound`
for a list of jobs if every job is either pending or settled, never both and never twice, and
whatever has been found for a job is what the job finds; events that tell the truth about the jobs
keep a pool sound (`Sound.steps`).
-/
import SourceAtlas.Proofs.Keyed
import SourceAtlas.Reading.Schedule

namespace SourceAtlas.Reading

/-- An event starts no read and ends none. -/
def Event.Quiet : Event → Prop
  | .start _ => False
  | .finish _ _ => False
  | _ => True

/-- The read that an event is about. -/
def Event.path? : Event → Option String
  | .start path => some path
  | .finish path _ => some path
  | .pass _ => none
  | .collect path => some path
  | .abandon path _ => some path
  | .refresh => none
  | .requeue path => some path

namespace Pool

variable {pool : Pool} {path : String} {stage : Stage} {event : Event}

/-- The files whose reads are not settled yet. -/
def unsettled (pool : Pool) : List String :=
  pool.pending.map (·.path)

/-! ## Stages -/

theorem exists_of_stage? (h : pool.stage? path = some stage) :
    ∃ p ∈ pool.pending, p.path = path ∧ p.stage = stage := by
  unfold stage? at h
  obtain ⟨p, hfind, hstage⟩ := Option.map_eq_some_iff.mp h
  have hpath := List.find?_some hfind
  exact ⟨p, List.mem_of_find?_eq_some hfind, eq_of_beq hpath, hstage⟩

/-- No file is read twice, so a read tells the stage of its file. -/
theorem stage?_of_mem (hdistinct : pool.unsettled.Nodup) {p : Pending} (hp : p ∈ pool.pending) :
    pool.stage? p.path = some p.stage := by
  unfold stage?
  rw [find?_of_nodup hdistinct hp]
  rfl

/-- A read whose file is in the pool. -/
theorem mem_unsettled : path ∈ pool.unsettled ↔ ∃ p ∈ pool.pending, p.path = path := by
  unfold unsettled
  rw [List.mem_map]

theorem mem_setStage {q : Pending} :
    q ∈ (pool.setStage path stage).pending ↔
      (∃ p ∈ pool.pending, p.path = path ∧ q = { p with stage }) ∨
        q ∈ pool.pending ∧ q.path ≠ path := by
  show q ∈ pool.pending.map _ ↔ _
  rw [List.mem_map]
  constructor
  · rintro ⟨p, hp, rfl⟩
    by_cases hpath : p.path = path
    · rw [if_pos hpath]
      exact Or.inl ⟨p, hp, hpath, rfl⟩
    · rw [if_neg hpath]
      exact Or.inr ⟨hp, hpath⟩
  · rintro (⟨p, hp, hpath, rfl⟩ | ⟨hq, hpath⟩)
    · exact ⟨p, hp, if_pos hpath⟩
    · exact ⟨q, hq, if_neg hpath⟩

/-- What changes reads one by one and leaves their files keeps the list of files. -/
theorem unsettled_map {f : Pending → Pending} (h : ∀ p, (f p).path = p.path) :
    unsettled { pool with pending := pool.pending.map f } = pool.unsettled := by
  unfold unsettled
  rw [List.map_map]
  exact List.map_congr_left fun p _ => h p

@[simp] theorem unsettled_setStage : (pool.setStage path stage).unsettled = pool.unsettled := by
  apply unsettled_map
  intro p
  split
  · rfl
  · rfl

theorem mem_settle {q : Pending} :
    q ∈ (pool.settle path).pending ↔ q ∈ pool.pending ∧ q.path ≠ path := by
  show q ∈ pool.pending.filter _ ↔ _
  rw [List.mem_filter, bne_iff_ne]

/-! ## What an event does -/

/-- **`Moves pool event next`** — an event takes a pool to the next. -/
inductive Moves (pool : Pool) : Event → Pool → Prop
  /-- The event does not fit. -/
  | idle {event : Event} : Moves pool event pool
  | start {path : String} (waits : pool.stage? path = some .waiting) :
      Moves pool (.start path) (pool.setStage path (.running pool.now))
  | finish {path : String} {since : Nat} (found : Option NameSet)
      (runs : pool.stage? path = some (.running since)) :
      Moves pool (.finish path found) (pool.setStage path (.ended found))
  | pass (ticks : Nat) : Moves pool (.pass ticks) { pool with now := pool.now + ticks }
  | collect {path : String} {found : NameSet}
      (ended : pool.stage? path = some (.ended (some found))) :
      Moves pool (.collect path) ((pool.settle path).record path found)
  /-- A read that found the scan called off leaves no result. -/
  | skip {path : String} (ended : pool.stage? path = some (.ended none)) :
      Moves pool (.collect path) (pool.settle path)
  | abandon {path : String} {since patience : Nat}
      (runs : pool.stage? path = some (.running since)) (late : patience < pool.now - since) :
      Moves pool (.abandon path patience) ((pool.settle path).record path OrderedSet.empty)
  | refresh : Moves pool .refresh { pool with readers := pool.readers + 1 }
  | requeue {path : String} (waits : pool.stage? path = some .waiting) :
      Moves pool (.requeue path)
        { pool with
          pending := pool.pending.map fun p =>
            if p.path = path then { p with readers := pool.readers } else p }

/-- **Every event takes a pool to the next in one of these ways.** -/
theorem moves_step (pool : Pool) (event : Event) : Moves pool event (pool.step event) := by
  cases event with
  | start path =>
      simp only [step]
      split
      · exact Moves.start ‹_›
      · exact Moves.idle
  | finish path found =>
      simp only [step]
      split
      · exact Moves.finish found ‹_›
      · exact Moves.idle
  | pass ticks => exact Moves.pass ticks
  | collect path =>
      simp only [step]
      split
      · exact Moves.collect ‹_›
      · exact Moves.skip ‹_›
      · exact Moves.idle
  | abandon path patience =>
      simp only [step]
      split
      · split
        · exact Moves.abandon ‹_› ‹_›
        · exact Moves.idle
      · exact Moves.idle
  | refresh => exact Moves.refresh
  | requeue path =>
      simp only [step]
      split
      · exact Moves.requeue ‹_›
      · exact Moves.idle

variable {next : Pool}

/-- An event touches no read but its own. -/
theorem Moves.mem_pending_of_ne (h : Moves pool event next) {p : Pending}
    (hne : event.path? ≠ some p.path) : p ∈ next.pending ↔ p ∈ pool.pending := by
  have hother : ∀ {path}, event.path? = some path → p.path ≠ path := by
    intro path hevent hpath
    rw [hevent, hpath] at hne
    exact hne rfl
  have hset : ∀ {path stage}, event.path? = some path →
      (p ∈ (pool.setStage path stage).pending ↔ p ∈ pool.pending) := by
    intro path stage hevent
    rw [mem_setStage]
    constructor
    · rintro (⟨q, -, hpath, rfl⟩ | ⟨hp, -⟩)
      · exact absurd hpath (hother hevent)
      · exact hp
    · exact fun hp => Or.inr ⟨hp, hother hevent⟩
  have hsettle : ∀ {path}, event.path? = some path →
      (p ∈ (pool.settle path).pending ↔ p ∈ pool.pending) := by
    intro path hevent
    rw [mem_settle]
    exact and_iff_left (hother hevent)
  -- an event changes one stage, settles one read, or leaves the reads alone
  cases h with
  | idle => exact Iff.rfl
  | start waits => exact hset rfl
  | finish found runs => exact hset rfl
  | pass ticks => exact Iff.rfl
  | collect ended => exact hsettle rfl
  | skip ended => exact hsettle rfl
  | abandon runs late => exact hsettle rfl
  | refresh => exact Iff.rfl
  | @requeue path waits =>
      show p ∈ pool.pending.map _ ↔ _
      rw [List.mem_map]
      constructor
      · rintro ⟨q, hq, hp⟩
        by_cases hpath : q.path = path
        · rw [if_pos hpath] at hp
          exact absurd (hp ▸ hpath) (hother rfl)
        · rw [if_neg hpath] at hp
          exact hp ▸ hq
      · exact fun hp => ⟨p, hp, if_neg (hother rfl)⟩

/-- **A read keeps its stage unless it starts or ends.** -/
theorem Moves.stage_of_mem (h : Moves pool event next) {q : Pending} (hq : q ∈ next.pending) :
    (∃ p ∈ pool.pending, p.path = q.path ∧ p.stage = q.stage) ∨
      (event = .start q.path ∧ q.stage = .running pool.now) ∨
      ∃ found, event = .finish q.path found ∧ q.stage = .ended found := by
  cases h with
  | idle => exact Or.inl ⟨q, hq, rfl, rfl⟩
  | start waits =>
      rcases mem_setStage.mp hq with ⟨p, -, hpath, rfl⟩ | ⟨hq, -⟩
      · exact Or.inr (Or.inl ⟨congrArg Event.start hpath.symm, rfl⟩)
      · exact Or.inl ⟨q, hq, rfl, rfl⟩
  | finish found runs =>
      rcases mem_setStage.mp hq with ⟨p, -, hpath, rfl⟩ | ⟨hq, -⟩
      · exact Or.inr (Or.inr ⟨found, congrArg (Event.finish · found) hpath.symm, rfl⟩)
      · exact Or.inl ⟨q, hq, rfl, rfl⟩
  | pass ticks => exact Or.inl ⟨q, hq, rfl, rfl⟩
  | collect ended => exact Or.inl ⟨q, (mem_settle.mp hq).1, rfl, rfl⟩
  | skip ended => exact Or.inl ⟨q, (mem_settle.mp hq).1, rfl, rfl⟩
  | abandon runs late => exact Or.inl ⟨q, (mem_settle.mp hq).1, rfl, rfl⟩
  | refresh => exact Or.inl ⟨q, hq, rfl, rfl⟩
  | requeue waits =>
      obtain ⟨p, hp, rfl⟩ := List.mem_map.mp hq
      left
      refine ⟨p, hp, ?_, ?_⟩
      · split
        · rfl
        · rfl
      · split
        · rfl
        · rfl

theorem unsettled_settle : (pool.settle path).unsettled = pool.unsettled.filter (· != path) := by
  unfold unsettled settle
  rw [List.filter_map]
  rfl

/-- What is settled stays settled. -/
theorem Moves.unsettled_sublist (h : Moves pool event next) :
    next.unsettled.Sublist pool.unsettled := by
  cases h with
  | idle => exact List.Sublist.refl _
  | start waits => rw [unsettled_setStage]
  | finish found runs => rw [unsettled_setStage]
  | pass ticks => exact List.Sublist.refl _
  | collect ended =>
      show (pool.settle _).unsettled.Sublist _
      rw [unsettled_settle]
      exact List.filter_sublist
  | skip ended =>
      rw [unsettled_settle]
      exact List.filter_sublist
  | abandon runs late =>
      show (pool.settle _).unsettled.Sublist _
      rw [unsettled_settle]
      exact List.filter_sublist
  | refresh => exact List.Sublist.refl _
  | requeue waits =>
      rw [unsettled_map]
      intro p
      split
      · rfl
      · rfl

/-- No event makes a file be read twice. -/
theorem nodup_step (event : Event) (hdistinct : pool.unsettled.Nodup) :
    (pool.step event).unsettled.Nodup :=
  (moves_step pool event).unsettled_sublist.nodup hdistinct

/-- Time does not go back. -/
theorem Moves.now_le (h : Moves pool event next) : pool.now ≤ next.now := by
  cases h with
  | pass ticks => exact Nat.le_add_right pool.now ticks
  | _ => exact Nat.le_refl _

/-- **An event settles a read with a result or leaves the results alone.** -/
theorem Moves.results (h : Moves pool event next) :
    (next.results = pool.results) ∨
      ∃ path found, next.results = (path, found) :: pool.results ∧
        (pool.stage? path = some (.ended (some found)) ∨
          ∃ patience, event = .abandon path patience ∧ found = OrderedSet.empty) := by
  cases h with
  | @collect path found ended => exact Or.inr ⟨path, found, rfl, Or.inl ended⟩
  | @abandon path since patience runs late =>
      exact Or.inr ⟨path, OrderedSet.empty, rfl, Or.inr ⟨patience, rfl, rfl⟩⟩
  | _ => exact Or.inl rfl

/-! ## Settling -/

/-- Settling a read takes its file out, once and for all. -/
theorem not_mem_unsettled_settle : path ∉ (pool.settle path).unsettled := by
  rw [unsettled_settle, List.mem_filter]
  rintro ⟨-, h⟩
  exact absurd rfl (bne_iff_ne.mp h)

theorem perm_unsettled_settle (hdistinct : pool.unsettled.Nodup) (hpath : path ∈ pool.unsettled) :
    (path :: (pool.settle path).unsettled).Perm pool.unsettled := by
  rw [unsettled_settle, ← hdistinct.erase_eq_filter path]
  exact (List.perm_cons_erase hpath).symm

theorem mem_unsettled_of_stage? (h : pool.stage? path = some stage) : path ∈ pool.unsettled := by
  obtain ⟨p, hp, hpath, -⟩ := exists_of_stage? h
  exact mem_unsettled.mpr ⟨p, hp, hpath⟩

/-- The files of a pool, those that are settled behind those that are not. -/
def allPaths (pool : Pool) : List String :=
  pool.unsettled ++ pool.results.map (·.1)

/-- **No event loses a file**, as long as no read has found the scan called off. -/
theorem Moves.perm_allPaths (h : Moves pool event next) (hdistinct : pool.unsettled.Nodup)
    (hfound : ∀ p ∈ pool.pending, p.stage ≠ .ended none) : next.allPaths.Perm pool.allPaths := by
  have hrecord : ∀ {path stage} (found : NameSet), pool.stage? path = some stage →
      ((pool.settle path).record path found).allPaths.Perm pool.allPaths := by
    intro path stage found hstage
    have hsettle := perm_unsettled_settle hdistinct (mem_unsettled_of_stage? hstage)
    show ((pool.settle path).unsettled ++ path :: pool.results.map (·.1)).Perm _
    exact List.perm_middle.trans (hsettle.append_right _)
  cases h with
  | idle => exact List.Perm.refl _
  | start waits =>
      unfold allPaths
      rw [unsettled_setStage]
      exact List.Perm.refl _
  | finish found runs =>
      unfold allPaths
      rw [unsettled_setStage]
      exact List.Perm.refl _
  | pass ticks => exact List.Perm.refl _
  | collect ended => exact hrecord _ ended
  | skip ended =>
      obtain ⟨p, hp, -, hstage⟩ := exists_of_stage? ended
      exact absurd hstage (hfound p hp)
  | abandon runs late => exact hrecord _ runs
  | refresh => exact List.Perm.refl _
  | requeue waits =>
      unfold allPaths
      rw [unsettled_map]
      intro p
      split
      · rfl
      · rfl

/-- A poll settles a read that has ended. -/
theorem not_mem_unsettled_collect (hdistinct : pool.unsettled.Nodup) {p : Pending}
    (hp : p ∈ pool.pending) {found : Option NameSet} (hended : p.stage = .ended found) :
    p.path ∉ (pool.step (.collect p.path)).unsettled := by
  have hstage := stage?_of_mem hdistinct hp
  rw [hended] at hstage
  cases found with
  | none =>
      simp only [step, hstage]
      exact not_mem_unsettled_settle
  | some found =>
      simp only [step, hstage]
      exact not_mem_unsettled_settle

/-- A poll settles a read that has run for too long. -/
theorem not_mem_unsettled_abandon (hdistinct : pool.unsettled.Nodup) {p : Pending}
    (hp : p ∈ pool.pending) {since patience : Nat} (hruns : p.stage = .running since)
    (hlate : since + patience < pool.now) :
    p.path ∉ (pool.step (.abandon p.path patience)).unsettled := by
  have hstage := stage?_of_mem hdistinct hp
  rw [hruns] at hstage
  simp only [step, hstage]
  rw [if_pos (by omega)]
  exact not_mem_unsettled_settle

/-! ## Many events -/

theorem steps_cons (pool : Pool) (event : Event) (events : List Event) :
    pool.steps (event :: events) = (pool.step event).steps events := rfl

theorem steps_append (pool : Pool) (first rest : List Event) :
    pool.steps (first ++ rest) = (pool.steps first).steps rest :=
  List.foldl_append

theorem unsettled_steps_sublist (events : List Event) (pool : Pool) :
    (pool.steps events).unsettled.Sublist pool.unsettled := by
  induction events generalizing pool with
  | nil => exact List.Sublist.refl _
  | cons event rest ih =>
      exact (ih (pool.step event)).trans (moves_step pool event).unsettled_sublist

/-- Events one after another settle every read that each of them would settle at once. -/
theorem not_mem_unsettled_steps {act : String → Event} {ripe : Pool → Pending → Prop}
    (hpath : ∀ path, (act path).path? = some path)
    (hsettles : ∀ {pool : Pool}, pool.unsettled.Nodup → ∀ p ∈ pool.pending, ripe pool p →
      p.path ∉ (pool.step (act p.path)).unsettled)
    (hripe : ∀ {pool : Pool} {path p}, ripe pool p → ripe (pool.step (act path)) p)
    (paths : List String) {pool : Pool} (hdistinct : pool.unsettled.Nodup) {p : Pending}
    (hp : p ∈ pool.pending) (hnow : ripe pool p) (hmem : p.path ∈ paths) :
    p.path ∉ (pool.steps (paths.map act)).unsettled := by
  induction paths generalizing pool with
  | nil => cases hmem
  | cons path rest ih =>
      rw [List.map_cons, steps_cons]
      have hmoves := moves_step pool (act path)
      by_cases heq : p.path = path
      · -- its own event settles the read, and the later ones leave it settled
        intro hleft
        have hleft := (unsettled_steps_sublist (rest.map act) (pool.step (act path))).subset hleft
        rw [← heq] at hleft
        exact hsettles hdistinct p hp hnow hleft
      · have hother : (act path).path? ≠ some p.path := by
          rw [hpath]
          intro h
          exact heq (Option.some.inj h).symm
        have hrest : p.path ∈ rest := by
          rcases List.mem_cons.mp hmem with h | h
          · exact absurd h heq
          · exact h
        exact ih (nodup_step _ hdistinct) ((hmoves.mem_pending_of_ne hother).mpr hp) (hripe hnow)
          hrest

/-- Quiet events leave the stages of the reads that they do not settle. -/
theorem stage_of_mem_steps {events : List Event} (hquiet : ∀ event ∈ events, event.Quiet)
    {q : Pending} (hq : q ∈ (pool.steps events).pending) :
    ∃ p ∈ pool.pending, p.path = q.path ∧ p.stage = q.stage := by
  induction events generalizing pool with
  | nil => exact ⟨q, hq, rfl, rfl⟩
  | cons event rest ih =>
      obtain ⟨p, hp, hpath, hstage⟩ := ih (fun e he => hquiet e (List.mem_cons_of_mem event he)) hq
      rcases (moves_step pool event).stage_of_mem hp with ⟨p', hp', hpath', hstage'⟩ | ⟨h, -⟩ |
        ⟨found, h, -⟩
      · exact ⟨p', hp', hpath'.trans hpath, hstage'.trans hstage⟩
      · exact (h ▸ hquiet event List.mem_cons_self : (Event.start p.path).Quiet).elim
      · exact (h ▸ hquiet event List.mem_cons_self : (Event.finish p.path found).Quiet).elim

/-! ## What has ended and what runs -/

theorem mem_ended {p : Pending} (hp : p ∈ pool.pending) {found : Option NameSet}
    (h : p.stage = .ended found) : p.path ∈ pool.ended := by
  unfold Pool.ended
  rw [List.mem_filterMap]
  refine ⟨p, hp, ?_⟩
  rw [h]

theorem mem_running {p : Pending} (hp : p ∈ pool.pending) {since : Nat}
    (h : p.stage = .running since) : p.path ∈ pool.running := by
  unfold Pool.running
  rw [List.mem_filterMap]
  refine ⟨p, hp, ?_⟩
  rw [h]

theorem exists_of_mem_ended (h : path ∈ pool.ended) :
    ∃ p ∈ pool.pending, p.path = path ∧ ∃ found, p.stage = .ended found := by
  unfold Pool.ended at h
  obtain ⟨p, hp, hpath⟩ := List.mem_filterMap.mp h
  cases hstage : p.stage with
  | ended found =>
      rw [hstage] at hpath
      exact ⟨p, hp, Option.some.inj hpath, found, hstage⟩
  | _ =>
      rw [hstage] at hpath
      cases hpath

theorem exists_of_mem_running (h : path ∈ pool.running) :
    ∃ p ∈ pool.pending, p.path = path ∧ ∃ since, p.stage = .running since := by
  unfold Pool.running at h
  obtain ⟨p, hp, hpath⟩ := List.mem_filterMap.mp h
  cases hstage : p.stage with
  | running since =>
      rw [hstage] at hpath
      exact ⟨p, hp, Option.some.inj hpath, since, hstage⟩
  | _ =>
      rw [hstage] at hpath
      cases hpath

/-- A poll settles all reads that have ended. -/
theorem not_mem_unsettled_collectAll (hdistinct : pool.unsettled.Nodup)
    (hpath : path ∈ pool.ended) : path ∉ (pool.steps (pool.ended.map .collect)).unsettled := by
  obtain ⟨p, hp, rfl, found, hstage⟩ := exists_of_mem_ended hpath
  let ripe (_ : Pool) (p : Pending) : Prop := p.stage = .ended found
  have hsettles : ∀ {pool : Pool}, pool.unsettled.Nodup → ∀ p ∈ pool.pending, ripe pool p →
      p.path ∉ (pool.step (.collect p.path)).unsettled :=
    fun hdistinct p hp hripe => not_mem_unsettled_collect hdistinct hp hripe
  exact not_mem_unsettled_steps (fun path => rfl) hsettles id pool.ended hdistinct hp hstage hpath

/-- A poll settles all reads that have run for too long. -/
theorem not_mem_unsettled_abandonAll (hdistinct : pool.unsettled.Nodup) {p : Pending}
    (hp : p ∈ pool.pending) {since patience : Nat} (hruns : p.stage = .running since)
    (hlate : since + patience < pool.now) {paths : List String} (hpath : p.path ∈ paths) :
    p.path ∉ (pool.steps (paths.map (.abandon · patience))).unsettled := by
  -- a read that is late stays late, because time does not go back
  let ripe (pool : Pool) (p : Pending) : Prop :=
    p.stage = .running since ∧ since + patience < pool.now
  have hsettles : ∀ {pool : Pool}, pool.unsettled.Nodup → ∀ p ∈ pool.pending, ripe pool p →
      p.path ∉ (pool.step (.abandon p.path patience)).unsettled :=
    fun hdistinct p hp hripe => not_mem_unsettled_abandon hdistinct hp hripe.1 hripe.2
  have hripe : ∀ {pool : Pool} {path p}, ripe pool p →
      ripe (pool.step (.abandon path patience)) p :=
    fun hripe => ⟨hripe.1, Nat.lt_of_lt_of_le hripe.2 (moves_step _ _).now_le⟩
  exact not_mem_unsettled_steps (fun path => rfl) hsettles hripe paths hdistinct hp ⟨hruns, hlate⟩
    hpath

end Pool

/-! ## Sound pools -/

/-- What is found for a job in the end: nothing is found where a read fails or never ends. -/
def Job.found (job : Job) : NameSet :=
  (job.outcome.specifiers? job.language).getD OrderedSet.empty

/-- An event tells the truth about jobs: reads end with what they find, and only reads that find
nothing are given up. -/
def Event.Fits (jobs : List Job) : Event → Prop
  | .finish path found => ∃ job ∈ jobs, job.path = path ∧ found = some job.found
  | .abandon path _ => ∃ job ∈ jobs, job.path = path ∧ job.found = OrderedSet.empty
  | _ => True

/-- **`Sound jobs pool`** — each job is pending or settled, and what is known of it is true. -/
structure Sound (jobs : List Job) (pool : Pool) : Prop where
  accounted : pool.allPaths.Perm (jobs.map (·.path))
  /-- A read runs since a moment that has been. -/
  begun : ∀ p ∈ pool.pending, ∀ since, p.stage = .running since → since ≤ pool.now
  ended : ∀ p ∈ pool.pending, ∀ found, p.stage = .ended found →
    ∃ job ∈ jobs, job.path = p.path ∧ found = some job.found
  settled : ∀ result ∈ pool.results, ∃ job ∈ jobs, job.path = result.1 ∧ job.found = result.2

variable {jobs : List Job} {pool : Pool}

theorem Sound.distinct (h : Sound jobs pool) (hjobs : (jobs.map (·.path)).Nodup) :
    pool.unsettled.Nodup :=
  (List.nodup_append.mp (h.accounted.nodup_iff.mpr hjobs)).1

/-- **Events that tell the truth keep a pool sound.** -/
theorem Sound.step (h : Sound jobs pool) (hjobs : (jobs.map (·.path)).Nodup) {event : Event}
    (hfits : event.Fits jobs) : Sound jobs (pool.step event) := by
  have hmoves := Pool.moves_step pool event
  refine ⟨?_, ?_, ?_, ?_⟩
  · refine (hmoves.perm_allPaths (h.distinct hjobs) ?_).trans h.accounted
    intro p hp hnone
    obtain ⟨job, -, -, hfound⟩ := h.ended p hp none hnone
    cases hfound
  · intro q hq since hruns
    refine Nat.le_trans ?_ hmoves.now_le
    rcases hmoves.stage_of_mem hq with ⟨p, hp, -, hstage⟩ | ⟨-, hstage⟩ | ⟨found, -, hstage⟩
    · exact h.begun p hp since (hstage.trans hruns)
    · rw [hruns] at hstage
      cases hstage
      exact Nat.le_refl _
    · rw [hruns] at hstage
      cases hstage
  · intro q hq found hended
    rcases hmoves.stage_of_mem hq with ⟨p, hp, hpath, hstage⟩ | ⟨-, hstage⟩ | ⟨found', rfl, hstage⟩
    · rw [← hpath]
      exact h.ended p hp found (hstage.trans hended)
    · rw [hended] at hstage
      cases hstage
    · rw [hended] at hstage
      cases hstage
      exact hfits
  · intro result hresult
    rcases hmoves.results with hsame | ⟨path, found, hcons, hwhy⟩
    · rw [hsame] at hresult
      exact h.settled result hresult
    · rw [hcons] at hresult
      rcases List.mem_cons.mp hresult with rfl | hresult
      · -- a new result is what an ended read has found, or nothing
        rcases hwhy with hstage | ⟨patience, rfl, rfl⟩
        · obtain ⟨p, hp, hpath, hended⟩ := Pool.exists_of_stage? hstage
          obtain ⟨job, hjob, hjobPath, hfound⟩ := h.ended p hp _ hended
          exact ⟨job, hjob, hjobPath.trans hpath, (Option.some.inj hfound).symm⟩
        · exact hfits
      · exact h.settled result hresult

theorem Sound.steps (h : Sound jobs pool) (hjobs : (jobs.map (·.path)).Nodup)
    {events : List Event} (hfits : ∀ event ∈ events, event.Fits jobs) :
    Sound jobs (pool.steps events) := by
  induction events generalizing pool with
  | nil => exact h
  | cons event rest ih =>
      exact ih (h.step hjobs (hfits event List.mem_cons_self))
        fun event' h' => hfits event' (List.mem_cons_of_mem event h')

end SourceAtlas.Reading
