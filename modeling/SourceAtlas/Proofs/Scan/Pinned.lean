/-
# SourceAtlas.Proofs.Scan.Pinned — every spelling of a tracked path makes it the main file.

The text that names a main file is read up to three times: when options are made from raw values or
settings, on the command line, and when the main file is selected.  Each reading has rules of its
own, and yet every spelling of a path that the scan tracks comes out as that path, and so does its
absolute path on the command line (`mainFile_pinned`).

A path is tracked below the place that the root of the scan leads to.  The command line tells an
absolute path from its own root, so that this has to lead to the same place; it does unless it
begins with `~`, which a scan alone takes for a home folder.
-/
import SourceAtlas.Proofs.CommandLine.MainFile
import SourceAtlas.Proofs.Report.MainFile
import SourceAtlas.Proofs.Scan.Faults

namespace SourceAtlas.Scan

open SourceAtlas.Path Text
open Entry (IsProper Sound)
open CommandLine (Arguments settingsFor optionsFor)

variable {host : Settings.Host} {fs : FileSystem} {root : Option String} {place : List String}
  {path text : String} {options walked : ScanOptions} {signal : Signal}

/-! ## What a scan tracks and what pins its main file -/

/-- The paths that a scan tracks. -/
def trackedPaths (fs : FileSystem) (root : Option String) (options : ScanOptions)
    (signal : Signal) : List String :=
  match fs.rootPlace root with
  | .error _ => []
  | .ok place =>
    (gather ((fs.top.at? place).getD default) options signal).1.walk.tracked.map (·.path)

/-- **`Pins fs root options path`** — whenever the scan tracks the path, the path is the main file
of its report; and there is a report, unless the scan is called off with no partial one wanted or a
size cannot be shown. -/
def Pins (fs : FileSystem) (root : Option String) (options : ScanOptions) (path : String) : Prop :=
  ∀ generatedAt signal, path ∈ trackedPaths fs root options signal →
    match (run fs root generatedAt options signal).1 with
    | .ok report => report.mainFile = some path
    | .error fault =>
      (∃ size, fault = .size size) ∨
        options.partialOnCancel = false ∧ ∃ rootPath, fault = .cancelled rootPath

/-- **Options whose main file is read as a path pin it.** -/
theorem pins_of_spelledPath (h : options.mainFile = some text) (hne : text ≠ "")
    (hspelled : spelledPath text = path) : Pins fs root options path := by
  intro generatedAt signal htracked
  unfold trackedPaths at htracked
  unfold run
  cases hroot : fs.rootPlace root with
  | error fault =>
      rw [hroot] at htracked
      cases htracked
  | ok place =>
      rw [hroot] at htracked
      simp only [folder_fst]
      split
      · rename_i report hreport
        -- finishing the tracked files keeps their paths, so the path is still listed
        rw [mainFile_of_conclude_ok hreport]
        refine selectMain?_of_configures ⟨text, h, hne, spelledPath_eq_iff.mp hspelled⟩ ?_
        rw [Report.map_path_finalize]
        exact htracked
      · rename_i fault hfault
        exact (conclude_error hfault).imp_right fun ⟨_, hwanted, heq⟩ => ⟨hwanted, _, heq⟩

/-! ## The shape of a tracked path -/

/-- A root is a path that leads to a folder when its `~` is replaced. -/
theorem rootPlace_ok (h : fs.rootPlace root = .ok place) :
    ∃ given expanded, root = some given ∧ fs.expandHome given = .ok expanded ∧
      fs.place? expanded = some place ∧
      ∃ tree, fs.top.at? place = some tree ∧ tree.isFolder = true := by
  unfold FileSystem.rootPlace at h
  split at h
  · cases h
  · split at h
    · cases h
    · rename_i given hblank
      obtain ⟨expanded, hexpanded, h⟩ := bind_eq_ok.mp h
      split at h
      · rename_i found hfound
        split at h
        · rename_i hfolder
          cases h
          exact ⟨given, expanded, rfl, hexpanded, hfound, (Option.any_eq_true _ _).mp hfolder⟩
        · cases h
      · cases h

/-- A root that does not begin with `~` leads where the scan of it begins. -/
theorem place?_of_rootPlace {given : String} (h : fs.rootPlace (some (tidied given)) = .ok place)
    (hhome : beginsWith '~' (tidied given) = false) : fs.place? given = some place := by
  have hexpanded : fs.expandHome (tidied given) = .ok (tidied given) := by
    unfold FileSystem.expandHome
    simp only [tidied_tidied]
    split
    · rename_i rest heq
      unfold beginsWith at hhome
      rw [heq] at hhome
      cases hhome
    · rfl
  obtain ⟨_, expanded, hgiven, hok, hplace, -⟩ := rootPlace_ok h
  cases hgiven
  rw [hexpanded] at hok
  cases hok
  rw [← FileSystem.place?_tidied, hplace]

/-- **A tracked path is made of the proper names that lead to its file**, below a place of such
names. -/
theorem stands_of_mem_trackedPaths (hsound : fs.top.Sound) (hroot : fs.rootPlace root = .ok place)
    (htracked : path ∈ trackedPaths fs root walked signal) :
    (∀ name ∈ place, IsProper name) ∧ (∀ name ∈ splitAt '/' path, IsProper name) ∧
      fs.top.Stands (place ++ splitAt '/' path) := by
  obtain ⟨-, -, -, -, -, tree, htree, -⟩ := rootPlace_ok hroot
  obtain ⟨htreeSound, hplace⟩ := hsound.of_at? htree
  unfold trackedPaths at htracked
  rw [hroot] at htracked
  simp only [htree, Option.getD_some] at htracked
  obtain ⟨file, hfile, rfl⟩ := List.mem_map.mp htracked
  obtain ⟨name, faults, content, hreaches⟩ :=
    Walk.exists_reaches_of_mem_files htreeSound.formed hfile
  have hat := Entry.at?_of_reaches hreaches htreeSound.formed
  refine ⟨hplace, (htreeSound.of_at? hat).2, .file name faults content, ?_, by simp⟩
  rw [Entry.at?_append, htree]
  exact hat

/-- A path of proper names is neither empty nor begins with `./`. -/
theorem isMainFile_of_names (hnames : ∀ name ∈ splitAt '/' path, IsProper name)
    (hslashed : '\\' ∉ path.toList) : IsMainFile path where
  nonempty := by
    rintro rfl
    -- the empty path falls into the empty name alone
    exact (hnames "" (by decide)).1.1 rfl
  slashed := hslashed
  direct := by
    -- a path that begins with `./` has `.` as its first name
    rintro ⟨rest, hrest⟩
    refine (hnames "." ?_).2.1 rfl
    have hpieces : pieces (· == '/') path.toList = ['.'] :: pieces (· == '/') rest := by
      rw [← hrest]
      exact pieces_append rfl ['.'] rest
    unfold splitAt
    rw [hpieces]
    exact List.mem_cons_self

/-! ## The ways to give a main file -/

section Given

variable (fs root) {arguments : Arguments} {base : ScanOptions} {warnings : List Warning}
  (hpath : IsMainFile path) (htight : Tight path.toList)

include hpath htight

/-- Options whose main file is the path itself pin it. -/
theorem pins_of_mainFile (h : options.mainFile = some path) : Pins fs root options path :=
  pins_of_spelledPath h hpath.nonempty
    ((spelledPath_eq_self_iff hpath.slashed hpath.direct).mpr htight)

/-- A command line that names the absolute path of a file below its root gives options that pin the
path. -/
theorem exists_pins_of_below {above : String} (hplace : ∀ name ∈ place, IsProper name)
    (hnames : ∀ name ∈ splitAt '/' path, IsProper name)
    (hstands : fs.top.Stands (place ++ splitAt '/' path))
    (hroot : fs.settle arguments.root = .ok place) (habsolute : isAbsolute above.toList = true)
    (habove : fs.settle above = .ok place)
    (hbase : settingsFor host fs arguments = .ok (base, warnings))
    (hgiven : arguments.mainFile? = some (join above path)) :
    ∃ options, optionsFor host fs arguments = .ok (options, warnings) ∧
      Pins fs root options path := by
  have hne : splitAt '/' path ≠ [] := by
    unfold splitAt
    rw [Ne, List.map_eq_nil_iff]
    exact pieces_ne_nil _ _
  have hfile := CommandLine.mainFileFor_below hroot habsolute habove hplace hnames hne hstands
    (intercalate_splitAt rfl path) hpath.nonempty hpath.slashed htight
  have hjoined : join above path ≠ "" := by
    intro hempty
    rw [hempty] at hfile
    cases hfile
    exact hpath.nonempty rfl
  obtain ⟨options, hoptions, hmain⟩ := CommandLine.exists_optionsFor hbase hgiven hjoined hfile
  exact ⟨options, hoptions, pins_of_mainFile fs root hpath htight hmain⟩

variable (hspelling : Spelling path.toList text.toList)

include hspelling

/-- Options whose main file is a spelling of the path pin it. -/
theorem pins_of_spelling (h : options.mainFile = some text) : Pins fs root options path :=
  pins_of_spelledPath h (hspelling.nonempty hpath.nonempty htight hpath.direct)
    (hspelling.spelledPath hpath.nonempty htight hpath.direct)

/-- Options that are made from a spelling of the path pin it. -/
theorem pins_ofRaw {raw : ScanOptions.Raw} (h : raw.mainFile = .text text) :
    Pins fs root (ScanOptions.ofRaw raw).1 path := by
  refine pins_of_mainFile fs root hpath htight ?_
  show (cleanMainFile raw.mainFile).1 = some path
  rw [h]
  exact cleanMainFile_text_eq_iff.mpr
    ⟨hpath.nonempty, hspelling.spelledPath hpath.nonempty htight hpath.direct⟩

/-- The options of settings with a spelling of the path pin it. -/
theorem pins_of_apply {mapping : List (Settings.Value × Settings.Value)}
    (hgiven : Settings.pick? (Settings.scope mapping) .mainFile = some (.text text))
    (h : Settings.apply host.processors mapping = .ok (options, warnings)) :
    Pins fs root options path := by
  obtain ⟨workers, timeout, limit, -, -, -, hresult⟩ := Settings.apply_eq_ok_iff.mp h
  rw [(Prod.mk.inj hresult).1]
  refine pins_ofRaw fs root hpath htight hspelling ?_
  unfold Settings.rawOf
  rw [hgiven]
  rfl

/-- A command line that names a spelling of the path gives options that pin it. -/
theorem exists_pins_of_spelling (hrelative : isAbsolute path.toList = false)
    (hbase : settingsFor host fs arguments = .ok (base, warnings))
    (hgiven : arguments.mainFile? = some text) :
    ∃ options, optionsFor host fs arguments = .ok (options, warnings) ∧
      Pins fs root options path := by
  obtain ⟨file, hfile, hne, hspelled⟩ :=
    CommandLine.mainFileFor_spelling hspelling hpath htight hrelative
  obtain ⟨options, hoptions, hmain⟩ := CommandLine.exists_optionsFor hbase hgiven
    (hspelling.nonempty hpath.nonempty htight hpath.direct) hfile
  exact ⟨options, hoptions, pins_of_spelledPath hmain hne hspelled⟩

end Given

/-! ## The main file of a scan -/

/-- **The main file is the one that is asked for, however it is spelled.**  Of files with distinct
paths the configured one is selected if it is listed, and otherwise the foremost one; there is none
exactly if there are no files, and their order makes no difference.  And for every trimmed path
without a backslash that a walk tracks, each spelling of it pins it, as main file of the options, as
raw value or setting from which options are made, and on a command line; and so does its absolute
path on a command line whose root leads to the root of the scan, behind the root's own path or
behind another that leads there. -/
theorem mainFile_pinned (host : Settings.Host) (hsound : fs.top.Sound)
    (hroot : fs.rootPlace root = .ok place)
    (htracked : path ∈ trackedPaths fs root walked signal)
    (hslashed : '\\' ∉ path.toList) (htight : Tight path.toList) :
    (∀ (files : List TrackedFile) (configured : Option String),
      (files.map (·.path)).Nodup →
        (selectMain? files configured = none ↔ files = []) ∧
        (∀ main, selectMain? files configured = some main ↔
          main ∈ files.map (·.path) ∧
            (Configures configured main ∨
              (∀ file ∈ files, ¬ Configures configured file.path) ∧
                ∃ file, Foremost files file ∧ file.path = main)) ∧
        ∀ files', files.Perm files' →
          selectMain? files configured = selectMain? files' configured) ∧
    (∀ text : String, Spelling path.toList text.toList →
      (∀ options : ScanOptions, options.mainFile = some text → Pins fs root options path) ∧
      (∀ raw : ScanOptions.Raw, raw.mainFile = .text text →
        Pins fs root (ScanOptions.ofRaw raw).1 path) ∧
      (∀ mapping options warnings,
        Settings.pick? (Settings.scope mapping) .mainFile = some (.text text) →
        Settings.apply host.processors mapping = .ok (options, warnings) →
        Pins fs root options path) ∧
      ∀ (arguments : Arguments) (base : ScanOptions) (warnings : List Warning),
        settingsFor host fs arguments = .ok (base, warnings) → arguments.mainFile? = some text →
        ∃ options, optionsFor host fs arguments = .ok (options, warnings) ∧
          Pins fs root options path) ∧
    ∀ (arguments : Arguments) (base : ScanOptions) (warnings : List Warning) (above : String),
      settingsFor host fs arguments = .ok (base, warnings) →
      root = some (tidied arguments.root) ∧ beginsWith '~' (tidied arguments.root) = false ∨
        fs.place? arguments.root = some place →
      above = FileSystem.pathOf place ∨
        isAbsolute above.toList = true ∧ fs.place? above = some place →
      arguments.mainFile? = some (join above path) →
      ∃ options, optionsFor host fs arguments = .ok (options, warnings) ∧
      Pins fs root options path := by
  obtain ⟨hplace, hnames, hstands⟩ := stands_of_mem_trackedPaths hsound hroot htracked
  have hpath := isMainFile_of_names hnames hslashed
  have hjoined : "/".intercalate (splitAt '/' path) = path := intercalate_splitAt rfl path
  have hrelative : isAbsolute path.toList = false :=
    hjoined ▸ FileSystem.isAbsolute_intercalate hnames
  refine ⟨?_, ?_, ?_⟩
  · intro files configured distinct
    exact ⟨selectMain?_eq_none_iff, fun main => selectMain?_eq_some_iff distinct,
      fun files' hperm => selectMain?_perm hperm distinct configured⟩
  · intro text hspelling
    refine ⟨?_, ?_, ?_, ?_⟩
    · exact fun options h => pins_of_spelling fs root hpath htight hspelling h
    · exact fun raw h => pins_ofRaw fs root hpath htight hspelling h
    · exact fun mapping options warnings hgiven h =>
        pins_of_apply fs root hpath htight hspelling hgiven h
    · exact fun arguments base warnings hbase hgiven =>
        exists_pins_of_spelling fs root hpath htight hspelling hrelative hbase hgiven
  · intro arguments base warnings above hbase hgivenRoot habove hgiven
    have hleads : fs.place? arguments.root = some place := by
      rcases hgivenRoot with ⟨rfl, hhome⟩ | hleads
      · exact place?_of_rootPlace hroot hhome
      · exact hleads
    -- either way the path in front is absolute and means the place of the root
    have hsettled : isAbsolute above.toList = true ∧ fs.settle above = .ok place := by
      rcases habove with rfl | ⟨habsolute, habove⟩
      · refine ⟨?_, FileSystem.settle_pathOf hplace hstands.of_append⟩
        rw [FileSystem.toList_pathOf]
        rfl
      · exact ⟨habsolute, FileSystem.settle_of_place? habove⟩
    exact exists_pins_of_below fs root hpath htight hplace hnames hstands
      (FileSystem.settle_of_place? hleads) hsettled.1 hsettled.2 hbase hgiven

/-- A project with a file in a folder. -/
def nestedProject : Entry :=
  .folder "p" Faults.none [
    .folder "src" Faults.none [.file "app.ts" Faults.none (.zeros 3)],
    .file "main.ts" Faults.none (.zeros 9)]

/-- A command line that names a main file in that project, with settings that are not there. -/
def askingFor (mainFile : String) : Arguments :=
  { root := "/p", settings? := some "none.json", mainFile? := some mainFile }

theorem sound_nestedProject : (holding nestedProject).top.Sound := by
  refine Sound.folder _ _ (by decide) (by decide) (List.forall_mem_singleton.mpr ?_)
  refine Sound.folder _ _ (by decide) (by decide) ?_
  simp only [List.forall_mem_cons]
  refine ⟨Sound.folder _ _ (by decide) (by decide) ?_, Sound.file _ _ _, List.forall_mem_nil _⟩
  exact List.forall_mem_singleton.mpr (Sound.file _ _ _)

/-- Settings that are not there leave the defaults. -/
theorem settingsFor_askingFor (host : Settings.Host) (mainFile : String) :
    settingsFor host (holding nestedProject) (askingFor mainFile) =
      .ok (.default host.processors, [.unreadableFile]) := by
  have hsegments : FileSystem.segmentsOf "none.json" = ["none.json"] := by decide
  have hrelative : isAbsolute "none.json".toList = false := by decide
  have hplace : (holding nestedProject).place? "none.json" = none := by
    unfold FileSystem.place? FileSystem.locate
    rw [hsegments, hrelative, FileSystem.follow, if_neg (by decide)]
    rfl
  have hload : Settings.load host (holding nestedProject) "none.json" =
      .ok (.default host.processors, [.unreadableFile]) := by
    unfold Settings.load FileSystem.bytes? FileSystem.entry?
    rw [hplace]
    rfl
  have hgiven : (askingFor mainFile).settings?.filter (!·.isEmpty) = some "none.json" := rfl
  unfold settingsFor
  simp only [hgiven]
  show (Settings.load host (holding nestedProject) "none.json").mapError _ = _
  rw [hload]
  rfl

theorem tracked_nestedProject :
    "src/app.ts" ∈ trackedPaths (holding nestedProject) (some "/p") (.default none) .never := by
  unfold trackedPaths nestedProject
  rw [rootPlace_holding]
  decide +kernel

theorem mainFile_pinned_nestedProject :
    (holding nestedProject).top.Sound ∧
      (holding nestedProject).rootPlace (some "/p") = .ok ["p"] ∧
      "src/app.ts" ∈ trackedPaths (holding nestedProject) (some "/p") (.default none) .never ∧
      (∃ options,
        optionsFor Settings.sixProcessors (holding nestedProject) (askingFor " .\\./src\\app.ts") =
          .ok (options, [.unreadableFile]) ∧
        Pins (holding nestedProject) (some "/p") options "src/app.ts") ∧
      ∃ options,
        optionsFor Settings.sixProcessors (holding nestedProject) (askingFor "/p/src/app.ts") =
          .ok (options, [.unreadableFile]) ∧
        Pins (holding nestedProject) (some "/p") options "src/app.ts" := by
  have hroot : (holding nestedProject).rootPlace (some "/p") = .ok ["p"] := rootPlace_holding _ _
  have htight : Tight "src/app.ts".toList := by
    refine trim_eq_self_iff.mp ?_
    decide +kernel
  have hspelling : Spelling "src/app.ts".toList " .\\./src\\app.ts".toList := by
    have hblank : Blank [' '] := forall_mem_of_all (by decide +kernel)
    have hdots : ∀ mark ∈ [['.', '\\'], dotSlash], mark = dotSlash ∨ mark = ['.', '\\'] := by
      simp
    exact ⟨[' '], [['.', '\\'], dotSlash], "src\\app.ts".toList, [], hblank,
      List.forall_mem_nil _, hdots, by decide, by decide⟩
  have hpinned := mainFile_pinned Settings.sixProcessors sound_nestedProject hroot
    tracked_nestedProject (by decide) htight
  refine ⟨sound_nestedProject, hroot, tracked_nestedProject, ?_, ?_⟩
  · exact (hpinned.2.1 _ hspelling).2.2.2 _ _ _ (settingsFor_askingFor _ _) rfl
  · have hsame : some "/p" = some (tidied (askingFor "/p/src/app.ts").root) ∧
        beginsWith '~' (tidied (askingFor "/p/src/app.ts").root) = false := by decide
    exact hpinned.2.2 _ _ _ "/p" (settingsFor_askingFor _ _) (Or.inl hsame) (Or.inl rfl) rfl

end SourceAtlas.Scan
