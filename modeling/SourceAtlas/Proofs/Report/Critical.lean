/-
# SourceAtlas.Proofs.Report.Critical — the ranking of the critical files.

`Ranking` says which list the critical files are the beginning of: the entries of exactly the files
that take part, in the strict order of their keys — by score, importers and size, each descending,
and by path — or, if no file takes part, those of all files by size and path.  There is one such
list for a list of files in any order, and the ranking for a limit is that much of it
(`rankCritical_exact`).

A score is made from counts as doubles, so a file with more importers or imports than any double has
no score.  Then, and only then, there is no ranking.
-/
import SourceAtlas.Proofs.Report.Permuted

namespace SourceAtlas

open Number

variable {files : List TrackedFile} {mainFile : Option String} {file : TrackedFile}
  {entry : CriticalEntry}

/-! ## Rankings -/

/-- The file has an importer or an import, or is the main file. -/
def TakesPart (mainFile : Option String) (file : TrackedFile) : Prop :=
  file.importedBy ≠ [] ∨ file.imports ≠ [] ∨ mainFile = some file.path

/-- **`Scores mainFile file entry`** — the entry is that of a file that is ranked by score. -/
structure Scores (mainFile : Option String) (file : TrackedFile) (entry : CriticalEntry) : Prop where
  path : entry.path = file.path
  inbound : entry.inbound = file.importedBy.length
  outbound : entry.outbound = file.imports.length
  size : entry.size = file.size
  score : ∃ score, criticality file.importedBy.length file.imports.length file.size
    (mainFile == some file.path) = .ok score ∧ entry.score = some score

/-- **`Sizes file entry`** — the entry is that of a file that is ranked by size. -/
structure Sizes (file : TrackedFile) (entry : CriticalEntry) : Prop where
  path : entry.path = file.path
  inbound : entry.inbound = 0
  outbound : entry.outbound = 0
  size : entry.size = file.size
  score : entry.score = none

/-- **`Lists among tells ranking`** — the entries of exactly these files, in the strict order of
their keys. -/
structure Lists (among : TrackedFile → Prop) (tells : TrackedFile → CriticalEntry → Prop)
    (ranking : List CriticalEntry) : Prop where
  sorted : ranking.Pairwise (·.rank < ·.rank)
  sound : ∀ entry ∈ ranking, ∃ file, among file ∧ tells file entry
  complete : ∀ file, among file → ∃ entry ∈ ranking, tells file entry

/-- **`Ranking files mainFile ranking`** — the whole ranking: by score, or by size if no file takes
part in that. -/
inductive Ranking (files : List TrackedFile) (mainFile : Option String)
    (ranking : List CriticalEntry) : Prop
  | byScore (taken : ∃ file ∈ files, TakesPart mainFile file)
      (lists : Lists (fun file => file ∈ files ∧ TakesPart mainFile file) (Scores mainFile) ranking)
  | bySize (free : ∀ file ∈ files, ¬ TakesPart mainFile file) (lists : Lists (· ∈ files) Sizes ranking)

/-- A file has more importers or imports than any double. -/
def Uncountable (files : List TrackedFile) : Prop :=
  ∃ file ∈ files, overflowLimit ≤ file.importedBy.length ∨ overflowLimit ≤ file.imports.length

/-! ## The entries of files -/

theorem isCandidate_iff : isCandidate mainFile file = true ↔ TakesPart mainFile file := by
  unfold isCandidate TakesPart
  rw [Bool.or_eq_true, Bool.or_eq_true, beq_iff_eq, or_assoc]
  simp

theorem scores_iff : Scores mainFile file entry ↔ scoredEntry mainFile file = .ok entry := by
  unfold scoredEntry
  rw [bind_eq_ok]
  constructor
  · intro h
    obtain ⟨score, hok, hscore⟩ := h.score
    cases entry
    cases h.path
    cases h.inbound
    cases h.outbound
    cases h.size
    cases hscore
    exact ⟨score, hok, rfl⟩
  · rintro ⟨score, hok, h⟩
    cases h
    exact ⟨rfl, rfl, rfl, rfl, score, hok, rfl⟩

theorem sizes_iff : Sizes file entry ↔ sizedEntry file = entry := by
  constructor
  · intro h
    cases entry
    cases h.path
    cases h.inbound
    cases h.outbound
    cases h.size
    cases h.score
    rfl
  · rintro rfl
    exact ⟨rfl, rfl, rfl, rfl, rfl⟩

/-- A count is a double exactly below the limit. -/
theorem exists_asDouble_iff {n : Nat} : (∃ x, asDouble n = .ok x) ↔ n < overflowLimit := by
  have hnone := ofInt?_eq_none_iff n
  rw [Int.natAbs_natCast] at hnone
  rw [← Nat.not_le, ← hnone]
  unfold asDouble
  cases ofInt? (n : Int) with
  | none => exact iff_of_false (fun ⟨_, h⟩ => by cases h) fun h => h rfl
  | some x => exact iff_of_true ⟨x, rfl⟩ (Option.some_ne_none x)

/-- **A file with a size has a score exactly if its importers and its imports can be counted.** -/
theorem exists_scores_iff (hsize : 0 ≤ file.size) :
    (∃ entry, Scores mainFile file entry) ↔
      file.importedBy.length < overflowLimit ∧ file.imports.length < overflowLimit := by
  obtain ⟨log, hlog⟩ := commonLog_ok (Int.lt_add_one_of_le hsize)
  rw [← exists_asDouble_iff, ← exists_asDouble_iff]
  simp only [scores_iff, scoredEntry, criticality, bind_eq_ok]
  constructor
  · rintro ⟨_, _, ⟨inbound, hinbound, outbound, houtbound, -⟩, -⟩
    exact ⟨⟨inbound, hinbound⟩, outbound, houtbound⟩
  · rintro ⟨⟨inbound, hinbound⟩, outbound, houtbound⟩
    exact ⟨_, _, ⟨inbound, hinbound, outbound, houtbound, log, hlog, rfl⟩, rfl⟩

/-! ## One ranking at most -/

/-- A file has one entry by score. -/
theorem Scores.unique {entry' : CriticalEntry} (h : Scores mainFile file entry)
    (h' : Scores mainFile file entry') : entry = entry' := by
  rw [scores_iff] at h h'
  exact Except.ok.inj (h.symm.trans h')

/-- A file has one entry by size. -/
theorem Sizes.unique {entry' : CriticalEntry} (h : Sizes file entry) (h' : Sizes file entry') :
    entry = entry' :=
  (sizes_iff.mp h).symm.trans (sizes_iff.mp h')

section Lists

variable {among : TrackedFile → Prop} {tells : TrackedFile → CriticalEntry → Prop}
  {ranking ranking' : List CriticalEntry}

/-- Lists of the entries of the same files are the same, if a file has one entry. -/
theorem Lists.unique (h : Lists among tells ranking) (h' : Lists among tells ranking')
    (htells : ∀ file entry entry', tells file entry → tells file entry' → entry = entry') :
    ranking = ranking' := by
  have hsub : ∀ {l l'}, Lists among tells l → Lists among tells l' → ∀ entry ∈ l, entry ∈ l' := by
    intro l l' hl hl' entry hentry
    obtain ⟨file, hfile, htold⟩ := hl.sound entry hentry
    obtain ⟨entry', hentry', htold'⟩ := hl'.complete file hfile
    rwa [htells file entry entry' htold htold']
  have hnodup : ∀ {l}, Lists among tells l → l.Nodup := fun hl =>
    hl.sorted.imp fun hlt heq => hlt.ne (congrArg CriticalEntry.rank heq)
  have hperm : ranking.Perm ranking' := (List.perm_ext_iff_of_nodup (hnodup h) (hnodup h')).mpr
    fun entry => ⟨hsub h h' entry, hsub h' h entry⟩
  exact List.Perm.eq_of_pairwise (fun _ _ _ _ hlt hgt => absurd hlt hgt.asymm) h.sorted h'.sorted
    hperm

/-- A list of the entries of distinct files names no path twice. -/
theorem Lists.nodup (h : Lists among tells ranking)
    (htells : ∀ file entry entry', tells file entry → tells file entry' → entry = entry')
    (hpath : ∀ file entry, tells file entry → entry.path = file.path)
    (distinct : ∀ file file', among file → among file' → file.path = file'.path → file = file') :
    (ranking.map (·.path)).Nodup := by
  refine List.pairwise_map.mpr (h.sorted.imp_of_mem ?_)
  intro a b ha hb hlt heq
  obtain ⟨file, hfile, htold⟩ := h.sound a ha
  obtain ⟨file', hfile', htold'⟩ := h.sound b hb
  have hsame : file = file' :=
    distinct file file' hfile hfile'
      ((hpath file a htold).symm.trans (heq.trans (hpath file' b htold')))
  rw [← hsame] at htold'
  exact hlt.ne (congrArg CriticalEntry.rank (htells file a b htold htold'))

end Lists

/-- **A list of files has one ranking at most.** -/
theorem Ranking.unique {ranking ranking' : List CriticalEntry} (h : Ranking files mainFile ranking)
    (h' : Ranking files mainFile ranking') : ranking = ranking' := by
  cases h with
  | byScore taken lists =>
      obtain ⟨file, hfile, hpart⟩ := taken
      cases h' with
      | byScore _ lists' => exact lists.unique lists' fun _ _ _ => Scores.unique
      | bySize free _ => exact absurd hpart (free file hfile)
  | bySize free lists =>
      cases h' with
      | byScore taken _ =>
          obtain ⟨file, hfile, hpart⟩ := taken
          exact absurd hpart (free file hfile)
      | bySize _ lists' => exact lists.unique lists' fun _ _ _ => Sizes.unique

theorem Ranking.nodup {ranking : List CriticalEntry} (h : Ranking files mainFile ranking)
    (distinct : (files.map (·.path)).Nodup) : (ranking.map (·.path)).Nodup := by
  cases h with
  | byScore _ lists =>
      exact lists.nodup (fun _ _ _ => Scores.unique) (fun _ _ => Scores.path)
        fun _ _ hfile hfile' => List.inj_on_of_nodup_map distinct hfile.1 hfile'.1
  | bySize _ lists =>
      exact lists.nodup (fun _ _ _ => Sizes.unique) (fun _ _ => Sizes.path)
        fun _ _ hfile hfile' => List.inj_on_of_nodup_map distinct hfile hfile'

/-! ## The ranking of a list of files -/

/-- Entries of distinct files in their order are in strict order. -/
theorem pairwise_rank_lt {entries : List CriticalEntry} (distinct : (entries.map (·.path)).Nodup)
    (hsorted : entries.Pairwise fun a b => a.leads b = true) :
    entries.Pairwise (·.rank < ·.rank) := by
  refine (hsorted.and (List.pairwise_map.mp distinct)).imp ?_
  rintro a b ⟨hle, hne⟩
  exact lt_of_le_of_ne ((CriticalEntry.leads_iff_le a b).mp hle)
    fun heq => hne (CriticalEntry.path_eq_of_rank heq)

/-- The entries of files, sorted, are the list of these files. -/
theorem lists_mergeSort {among : List TrackedFile} {entries : List CriticalEntry}
    (hentries : List.Forall₂ (fun file entry => scoredEntry mainFile file = .ok entry) among entries)
    (distinct : (among.map (·.path)).Nodup) :
    Lists (· ∈ among) (Scores mainFile) (entries.mergeSort CriticalEntry.leads) := by
  have hperm := List.mergeSort_perm entries CriticalEntry.leads
  have hsettles := CriticalEntry.settles_leads
  refine ⟨?_, fun entry hentry => ?_, fun file hfile => ?_⟩
  · refine pairwise_rank_lt ?_ (List.pairwise_mergeSort hsettles.trans hsettles.total entries)
    rw [(hperm.map _).nodup_iff, map_path_entries hentries]
    exact distinct
  · obtain ⟨file, hfile, hok⟩ := exists_of_mem_mapM hentries (hperm.subset hentry)
    exact ⟨file, hfile, scores_iff.mpr hok⟩
  · obtain ⟨entry, hentry, hok⟩ := exists_ok_of_mem hentries hfile
    exact ⟨entry, hperm.symm.subset hentry, scores_iff.mpr hok⟩

/-- The files, sorted, are listed by their sizes. -/
theorem lists_sized (distinct : (files.map (·.path)).Nodup) :
    Lists (· ∈ files) Sizes ((files.mergeSort isLarger).map sizedEntry) := by
  have hperm := List.mergeSort_perm files isLarger
  have hsettles := settles_isLarger
  refine ⟨?_, fun entry hentry => ?_, fun file hfile => ?_⟩
  · apply pairwise_rank_lt
    · rw [List.map_map]
      exact (hperm.map TrackedFile.path).nodup_iff.mpr distinct
    · -- entries without a score and without counts are compared as files are by size
      exact List.pairwise_map.mpr (List.pairwise_mergeSort hsettles.trans hsettles.total files)
  · obtain ⟨file, hfile, rfl⟩ := List.mem_map.mp hentry
    exact ⟨file, hperm.subset hfile, sizes_iff.mpr rfl⟩
  · exact ⟨sizedEntry file, List.mem_map_of_mem (hperm.symm.subset hfile), sizes_iff.mpr rfl⟩

/-- With a file that cannot be scored there is no ranking. -/
theorem rankCritical_of_uncountable (sized : ∀ file ∈ files, 0 ≤ file.size)
    (h : Uncountable files) (limit : Int) : rankCritical files mainFile limit = .error .tooBig := by
  obtain ⟨file, hfile, hmany⟩ := h
  have hlimit : 0 < overflowLimit := by decide +kernel
  have hpart : TakesPart mainFile file := by
    rcases hmany with hmany | hmany
    · exact Or.inl (List.ne_nil_of_length_pos (hlimit.trans_le hmany))
    · exact Or.inr (Or.inl (List.ne_nil_of_length_pos (hlimit.trans_le hmany)))
  have hnone : ¬ ∃ entry, scoredEntry mainFile file = .ok entry := by
    simp only [← scores_iff, exists_scores_iff (sized file hfile)]
    omega
  unfold rankCritical
  cases hmap : (files.filter (isCandidate mainFile)).mapM (scoredEntry mainFile) with
  | ok entries =>
      obtain ⟨entry, -, hok⟩ := exists_ok_of_mem (forall₂_of_mapM_ok hmap)
        (List.mem_filter.mpr ⟨hfile, isCandidate_iff.mpr hpart⟩)
      exact absurd ⟨entry, hok⟩ hnone
  | error fault =>
      obtain ⟨other, hother, hfault⟩ := exists_error_of_mapM_error hmap
      rw [(scoredEntry_error (sized other (List.mem_of_mem_filter hother)) hfault).1]
      rfl

/-- **The critical files are a beginning of the ranking.** -/
theorem exists_ranking (distinct : (files.map (·.path)).Nodup)
    (sized : ∀ file ∈ files, 0 ≤ file.size) (hcounted : ¬ Uncountable files)
    (mainFile : Option String) :
    ∃ ranking, Ranking files mainFile ranking ∧
      ∀ limit, 0 ≤ limit → rankCritical files mainFile limit = .ok (ranking.take limit.toNat) := by
  have hscores : ∀ file ∈ files.filter (isCandidate mainFile), ∀ fault,
      scoredEntry mainFile file ≠ .error fault := by
    intro file hfile fault hfault
    have hmem := List.mem_of_mem_filter hfile
    have hscored : ∃ entry, Scores mainFile file entry := by
      refine (exists_scores_iff (sized file hmem)).mpr
        ⟨Nat.lt_of_not_le fun hmany => ?_, Nat.lt_of_not_le fun hmany => ?_⟩
      · exact hcounted ⟨file, hmem, Or.inl hmany⟩
      · exact hcounted ⟨file, hmem, Or.inr hmany⟩
    obtain ⟨entry, hentry⟩ := hscored
    rw [scores_iff, hfault] at hentry
    cases hentry
  obtain ⟨entries, hentries⟩ := exists_mapM_ok hscores
  have hforall := forall₂_of_mapM_ok hentries
  have hrank : ∀ limit, rankCritical files mainFile limit =
      if entries.isEmpty then .ok ((takeUpTo limit (files.mergeSort isLarger)).map sizedEntry)
      else .ok (takeUpTo limit (entries.mergeSort CriticalEntry.leads)) := by
    intro limit
    unfold rankCritical
    rw [hentries]
    rfl
  by_cases hempty : entries = []
  · refine ⟨_, .bySize (fun file hfile hpart => ?_) (lists_sized distinct), fun limit hlimit => ?_⟩
    · obtain ⟨entry, hentry, -⟩ := exists_ok_of_mem hforall
        (List.mem_filter.mpr ⟨hfile, isCandidate_iff.mpr hpart⟩)
      rw [hempty] at hentry
      cases hentry
    · rw [hrank, hempty, takeUpTo, if_pos hlimit, List.map_take]
      rfl
  · have hlists := lists_mergeSort hforall (distinct.sublist (List.filter_sublist.map _))
    simp only [List.mem_filter, isCandidate_iff] at hlists
    refine ⟨_, .byScore ?_ hlists, fun limit hlimit => ?_⟩
    · obtain ⟨entry, hentry⟩ := List.exists_mem_of_ne_nil entries hempty
      obtain ⟨file, hfile, -⟩ := exists_of_mem_mapM hforall hentry
      obtain ⟨hmem, hpart⟩ := List.mem_filter.mp hfile
      exact ⟨file, hmem, isCandidate_iff.mp hpart⟩
    · rw [hrank, if_neg (by simpa using hempty), takeUpTo, if_pos hlimit]

/-- **The critical files are the beginning of the one ranking of the files**, as much of it as the
limit allows, in whichever order the files came, unless a file cannot be scored because its
importers or its imports are too many.  Each file stands in the ranking once, and a smaller limit
gives a beginning of what a larger one gives. -/
theorem rankCritical_exact (distinct : (files.map (·.path)).Nodup)
    (sized : ∀ file ∈ files, 0 ≤ file.size) (mainFile : Option String) :
    (¬ Uncountable files → ∃ ranking, Ranking files mainFile ranking ∧
      (∀ other, Ranking files mainFile other → other = ranking) ∧
      (ranking.map (·.path)).Nodup ∧
      ∀ limit, 0 ≤ limit →
        rankCritical files mainFile limit = .ok (ranking.take limit.toNat)) ∧
    (Uncountable files → ∀ limit, rankCritical files mainFile limit = .error .tooBig) ∧
    (∀ files' limit, files.Perm files' →
      rankCritical files' mainFile limit = rankCritical files mainFile limit) ∧
    ∀ limit limit' entries entries', 0 ≤ limit → limit ≤ limit' →
      rankCritical files mainFile limit = .ok entries →
      rankCritical files mainFile limit' = .ok entries' → entries <+: entries' := by
  refine ⟨fun hcounted => ?_, rankCritical_of_uncountable sized,
    fun files' limit hperm => (rankCritical_perm hperm distinct sized).symm, ?_⟩
  · obtain ⟨ranking, hranking, hrank⟩ := exists_ranking distinct sized hcounted mainFile
    exact ⟨ranking, hranking, fun other hother => hother.unique hranking,
      hranking.nodup distinct, hrank⟩
  · intro limit limit' entries entries' hlimit hle hentries hentries'
    by_cases hcounted : Uncountable files
    · rw [rankCritical_of_uncountable sized hcounted] at hentries
      cases hentries
    · obtain ⟨ranking, -, hrank⟩ := exists_ranking distinct sized hcounted mainFile
      rw [hrank limit hlimit] at hentries
      rw [hrank limit' (hlimit.trans hle)] at hentries'
      cases hentries
      cases hentries'
      exact List.take_prefix_take_left (Int.toNat_le_toNat hle)

/-- A file with three importers, one with six imports, a main file alone and a file that takes no
part. -/
def tiedFiles : List TrackedFile :=
  [⟨"importer.ts", ".ts", 50, ["a.ts", "b.ts", "c.ts", "d.ts", "e.ts", "f.ts"], []⟩,
    ⟨"isolated.ts", ".ts", 90, [], []⟩,
    ⟨"main.ts", ".ts", 10, [], []⟩,
    ⟨"imported.ts", ".ts", 50, [], ["x.ts", "y.ts", "z.ts"]⟩]

theorem rankCritical_exact_tiedFiles :
    (tiedFiles.map (·.path)).Nodup ∧ (∀ file ∈ tiedFiles, 0 ≤ file.size) ∧
      ¬ Uncountable tiedFiles ∧
      ∃ ranking, Ranking tiedFiles (some "main.ts") ranking ∧
        (∀ other, Ranking tiedFiles (some "main.ts") other → other = ranking) ∧
        (ranking.map (·.path)).Nodup ∧
        ∀ limit, 0 ≤ limit →
          rankCritical tiedFiles (some "main.ts") limit = .ok (ranking.take limit.toNat) := by
  have distinct : (tiedFiles.map (·.path)).Nodup := by decide
  have sized : ∀ file ∈ tiedFiles, 0 ≤ file.size := by decide
  have hcounted : ¬ Uncountable tiedFiles := by
    unfold Uncountable
    decide +kernel
  exact ⟨distinct, sized, hcounted,
    (rankCritical_exact distinct sized (some "main.ts")).1 hcounted⟩

end SourceAtlas
