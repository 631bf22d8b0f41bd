import WorkspaceLint.Proofs.Candidates
import WorkspaceLint.Proofs.Checks
import WorkspaceLint.Proofs.Files.Listing
import WorkspaceLint.Proofs.ShownLocations

/-!
# Which declared sources are missing

What is reported of the files that a build refers to, said by what stands in the tree: first the sources of the build configuration,
in the order of its entries, and then those of each compile file, in the order of paths and then of targets (`references_exact`). A
source is reported as often as it is declared, and only if it does not exist; a file that cannot be read is reported itself, and the
others are reported as they are without it. Compile files in a directory whose path is too long are passed over
(`references_omit_deep_files`).
-/

namespace WorkspaceLint

open Files (FileSystem Node)

variable {fs : FileSystem} {rules : Rules} {project : Path}

namespace Check

/-- Nothing exists at a path that is seen from the root of a project. -/
def IsAbsent (fs : FileSystem) (project : Path) (path : String) : Prop :=
  fs.exists? (project.join (Path.ofString path)) = .ok false

instance (fs : FileSystem) (project : Path) (path : String) : Decidable (IsAbsent fs project path) :=
  inferInstanceAs (Decidable (_ = _))

/-- A diagnostic tells which file it is about and, if a source is missing, which source. -/
structure IsTelling (fs : FileSystem) (project : Path) (d : Diagnostic) : Prop where
  /-- Nothing else is said than that a file cannot be used or that a source is missing. -/
  kind : d.kind = .structureInvalid ∨ d.kind = .missingReferencedFile
  /-- The message shows the location of the file. -/
  location : Shows d.message d.location
  /-- It shows a source that does not exist. -/
  source : d.kind = .missingReferencedFile → ∃ source, IsAbsent fs project source ∧ Shows d.message source

theorem isTelling_buildConfigDiagnostic (fs : FileSystem) (rules : Rules) (project : Path) (fault : DataFileFault) :
    IsTelling fs project (buildConfigDiagnostic rules fault) where
  kind := Or.inl rfl
  location := (((Shows.refl _).append_left _).append_right _).append_right _
  source := nofun

theorem isTelling_compileFileDiagnostic (fs : FileSystem) (project : Path) (location : String) (e : Files.Unreadable) :
    IsTelling fs project (compileFileDiagnostic location e) where
  kind := Or.inl rfl
  location := (((Shows.refl _).append_left _).append_right _).append_right _
  source := nofun

theorem isTelling_buildEntryDiagnostic (rules : Rules) {e : BuildEntry} (h : IsAbsent fs project e.path) :
    IsTelling fs project (buildEntryDiagnostic rules e) where
  kind := Or.inr rfl
  location := (((((Shows.refl _).append_right _).append_right _).append_right _).append_right _).append_right _
  source := fun _ => ⟨e.path, h, ((Shows.refl _).append_left _).append_right _⟩

theorem isTelling_targetDiagnostic (location form : String) {target : String} (h : IsAbsent fs project target) :
    IsTelling fs project (targetDiagnostic location form target) where
  kind := Or.inr rfl
  location := (((((Shows.refl _).append_right _).append_right _).append_right _).append_right _).append_right _
  source := fun _ => ⟨target, h, ((Shows.refl _).append_left _).append_right _⟩

/-! ## Sources in a list -/

/-- What is reported of the sources in a list, if they can all be looked up: one diagnostic for each that does not exist, in order. -/
theorem eq_of_missingDiagnostics {α : Type} {path : α → String} {diagnostic : α → Diagnostic} {declared : List α}
    {ds : List Diagnostic} (h : (missingDiagnostics fs project path diagnostic declared).outcome = .ok ds) :
    ds = (declared.filter fun a => IsAbsent fs project (path a)).map diagnostic := by
  obtain ⟨g, hg, rfl⟩ := Logged.collect_eq_ok.1 h
  clear h
  induction declared with
  | nil => rfl
  | cons a rest ih =>
    rw [List.forall_mem_cons] at hg
    have hga := hg.1
    rw [Logged.outcome_ofExcept, isMissing] at hga
    rw [List.flatMap_cons, ih hg.2]
    cases he : fs.exists? (project.join (Path.ofString (path a))) with
    | error e =>
      rw [he] at hga
      cases hga
    | ok there =>
      rw [he] at hga
      rw [← Except.ok.inj hga]
      cases there with
      | true =>
        have hthere : ¬IsAbsent fs project (path a) := fun habsent => by
          rw [IsAbsent, he] at habsent
          cases habsent
        rw [List.filter_cons_of_neg (by simpa using hthere)]
        rfl
      | false =>
        have habsent : IsAbsent fs project (path a) := he
        rw [List.filter_cons_of_pos (by simpa using habsent)]
        rfl

/-! ## The build configuration -/

/-- Where the build configuration of a project lies. -/
def configPath (rules : Rules) (project : Path) : Path := project.join (Path.ofString rules.buildConfigName)

/-- An entry of the build configuration is a map that gives a path, and nothing exists there. -/
def NamesAbsent (fs : FileSystem) (project : Path) (entry : Value) : Prop :=
  ∃ fields path, entry = .map fields ∧ entry.get? "path" = some path ∧ path.isGiven = true ∧ IsAbsent fs project path.asText

/-- The diagnostic for an entry of the build configuration whose source does not exist. -/
def absentEntry (rules : Rules) (entry : Value) : Diagnostic :=
  buildEntryDiagnostic rules
    { name := ((entry.get? "name").map Value.asText).getD "", path := ((entry.get? "path").map Value.asText).getD "" }

theorem ofValue?_eq_some_iff {entry : Value} {e : BuildEntry} : BuildEntry.ofValue? entry = some e ↔
    ∃ fields path, entry = .map fields ∧ entry.get? "path" = some path ∧ path.isGiven = true ∧
      e = { name := ((entry.get? "name").map Value.asText).getD "", path := path.asText } := by
  rw [BuildEntry.ofValue?, Option.bind_eq_bind, Option.bind_eq_some_iff]
  constructor
  · rintro ⟨path, hpath, h⟩
    split at h
    · rename_i hgiven
      cases h
      cases entry with
      | map fields => exact ⟨fields, path, rfl, hpath, hgiven, rfl⟩
      | _ => nomatch hpath
    · nomatch h
  · rintro ⟨fields, path, -, hpath, hgiven, rfl⟩
    exact ⟨path, hpath, if_pos hgiven⟩

theorem namesAbsent_iff {entry : Value} :
    NamesAbsent fs project entry ↔ ∃ e, BuildEntry.ofValue? entry = some e ∧ IsAbsent fs project e.path := by
  constructor
  · rintro ⟨fields, path, hentry, hpath, hgiven, habsent⟩
    exact ⟨_, ofValue?_eq_some_iff.2 ⟨fields, path, hentry, hpath, hgiven, rfl⟩, habsent⟩
  · rintro ⟨e, he, habsent⟩
    obtain ⟨fields, path, hentry, hpath, hgiven, rfl⟩ := ofValue?_eq_some_iff.1 he
    exact ⟨fields, path, hentry, hpath, hgiven, habsent⟩

instance (fs : FileSystem) (project : Path) (entry : Value) : Decidable (NamesAbsent fs project entry) :=
  decidable_of_iff ((BuildEntry.ofValue? entry).any (fun e => IsAbsent fs project e.path) = true) (by
    rw [namesAbsent_iff, Option.any_eq_true]
    simp only [decide_eq_true_eq])

/-- What is to be reported of the build configuration. -/
inductive IsConfigReport (fs : FileSystem) (rules : Rules) (project : Path) : List Diagnostic → Prop where
  /-- Nothing where there is none. -/
  | absent (h : fs.exists? (configPath rules project) = .ok false) : IsConfigReport fs rules project []
  /-- One diagnostic when it cannot be loaded. -/
  | unloadable {fault : DataFileFault} (hthere : fs.exists? (configPath rules project) = .ok true)
      (h : loadJson fs (configPath rules project) = .ok (.error fault)) :
      IsConfigReport fs rules project [buildConfigDiagnostic rules fault]
  /-- One for each entry whose source does not exist, when it is a map with a list of `projects`. -/
  | entries {fields : List (Value × Value)} {entries : List Value} (hthere : fs.exists? (configPath rules project) = .ok true)
      (h : loadJson fs (configPath rules project) = .ok (.ok (.map fields)))
      (hentries : Value.get? "projects" (.map fields) = some (.list entries)) :
      IsConfigReport fs rules project ((entries.filter (NamesAbsent fs project)).map (absentEntry rules))
  /-- Nothing for a value of any other shape. -/
  | other {v : Value} (hthere : fs.exists? (configPath rules project) = .ok true)
      (h : loadJson fs (configPath rules project) = .ok (.ok v))
      (hv : ∀ fields entries, v = .map fields → v.get? "projects" ≠ some (.list entries)) : IsConfigReport fs rules project []

/-- The entries whose sources do not exist are told by what they name. -/
theorem map_absentEntry (fs : FileSystem) (rules : Rules) (project : Path) (entries : List Value) :
    ((entries.filterMap BuildEntry.ofValue?).filter fun e => IsAbsent fs project e.path).map (buildEntryDiagnostic rules) =
      (entries.filter (NamesAbsent fs project)).map (absentEntry rules) := by
  induction entries with
  | nil => rfl
  | cons entry rest ih =>
    cases he : BuildEntry.ofValue? entry with
    | none =>
      have hno : ¬NamesAbsent fs project entry := fun h => by
        obtain ⟨e, he', -⟩ := namesAbsent_iff.1 h
        rw [he] at he'
        nomatch he'
      rw [List.filterMap_cons_none he, ih, List.filter_cons_of_neg (by simpa using hno)]
    | some e =>
      rw [List.filterMap_cons_some he, List.filter_cons, List.filter_cons]
      by_cases habsent : IsAbsent fs project e.path
      · have hnames : NamesAbsent fs project entry := namesAbsent_iff.2 ⟨e, he, habsent⟩
        have hentry : absentEntry rules entry = buildEntryDiagnostic rules e := by
          obtain ⟨fields, path, -, hpath, -, rfl⟩ := ofValue?_eq_some_iff.1 he
          rw [absentEntry, hpath]
          rfl
        simp [habsent, hnames, hentry, ih]
      · have hno : ¬NamesAbsent fs project entry := fun h => by
          obtain ⟨e', he', habsent'⟩ := namesAbsent_iff.1 h
          rw [he] at he'
          cases he'
          exact habsent habsent'
        simp [habsent, hno, ih]

theorem isConfigReport_of_buildConfig {ds : List Diagnostic} (h : (buildConfig fs rules project).outcome = .ok ds) :
    IsConfigReport fs rules project ds := by
  rcases buildConfig_eq_ok.1 h with ⟨ht, rfl⟩ | ⟨hthere, ⟨fault, hload, rfl⟩ | ⟨v, hload, hds⟩⟩
  · exact .absent ht
  · exact .unloadable hthere hload
  · rw [eq_of_missingDiagnostics hds, buildEntries]
    split
    · rename_i entries hentries
      rw [map_absentEntry]
      cases v with
      | map fields => exact .entries hthere hload hentries
      | _ => nomatch hentries
    · rename_i hno
      exact .other hthere hload fun _ entries _ => hno entries

/-- What is reported of the build configuration tells what it is about. -/
theorem IsConfigReport.isTelling {ds : List Diagnostic} (h : IsConfigReport fs rules project ds) :
    ∀ d ∈ ds, IsTelling fs project d := by
  cases h with
  | absent => simp
  | unloadable => exact List.forall_mem_singleton.2 (isTelling_buildConfigDiagnostic fs rules project _)
  | entries =>
    rw [List.forall_mem_map]
    intro entry hentry
    obtain ⟨fields, path, -, hpath, -, habsent⟩ := of_decide_eq_true (List.mem_filter.1 hentry).2
    rw [absentEntry, hpath]
    exact isTelling_buildEntryDiagnostic rules habsent
  | other => simp

/-! ## Compile files -/

/-- What is to be reported of a compile file. -/
inductive IsCompileReport (fs : FileSystem) (project path : Path) : List Diagnostic → Prop where
  /-- One diagnostic when it cannot be read. -/
  | unreadable {e : Files.Unreadable} (h : fs.text? path = .error e) :
      IsCompileReport fs project path [compileFileDiagnostic (relativeLocation path project) e]
  /-- One for each target that it declares and that does not exist. -/
  | targets {source : List Char} {targets : List (List Char)} {form : Source.TargetForm} (h : fs.text? path = .ok source)
      (htargets : Source.declaredTargets source = (targets, some form)) :
      IsCompileReport fs project path (((targets.map String.ofList).filter (IsAbsent fs project)).map
        (targetDiagnostic (relativeLocation path project) form.label))
  /-- Nothing when it declares none. -/
  | none {source : List Char} (h : fs.text? path = .ok source) (hnone : Source.declaredTargets source = ([], .none)) :
      IsCompileReport fs project path []

theorem isCompileReport_of_compileFile {path : Path} {ds : List Diagnostic} (h : (compileFile fs project path).outcome = .ok ds) :
    IsCompileReport fs project path ds := by
  rw [compileFile] at h
  cases ht : fs.text? path with
  | error e =>
    rw [ht] at h
    cases h
    exact .unreadable ht
  | ok source =>
    rw [ht] at h
    dsimp only at h
    split at h
    · rename_i targets form htargets
      rw [eq_of_missingDiagnostics h]
      exact .targets ht htargets
    · rename_i targets hnone
      cases h
      rw [declaredTargets_none hnone] at hnone
      exact .none ht hnone

theorem IsCompileReport.isTelling {path : Path} {ds : List Diagnostic} (h : IsCompileReport fs project path ds) :
    ∀ d ∈ ds, IsTelling fs project d := by
  cases h with
  | unreadable => exact List.forall_mem_singleton.2 (isTelling_compileFileDiagnostic fs project _ _)
  | targets =>
    rw [List.forall_mem_map]
    exact fun target htarget => isTelling_targetDiagnostic _ _ (of_decide_eq_true (List.mem_filter.1 htarget).2)
  | none => simp

/-- A compile file of a project: a file that is reached from it and is named as compile files are. -/
structure IsCompileFile (fs : FileSystem) (rules : Rules) (project path : Path) : Prop where
  /-- The walk from the project comes to it. -/
  reached : fs.ReachesFile rules.enters project path
  /-- Its name has the ending. -/
  ending : endsIn path.name rules.compileSuffix = true

/-- The compile files of a project, each once, in ascending order of the names on their paths. -/
theorem compileFilePaths_exact (hw : fs.WellFormed) {paths : List Path} (h : compileFilePaths fs rules project = .ok paths) :
    (paths.Pairwise fun p q => p.parts < q.parts) ∧ ∀ p, p ∈ paths ↔ IsCompileFile fs rules project p := by
  have hmem : ∀ p, p ∈ paths ↔ IsCompileFile fs rules project p := fun p =>
    (mem_compileFilePaths_iff hw h).trans ⟨fun ⟨hr, he⟩ => ⟨hr, he⟩, fun hp => ⟨hp.reached, hp.ending⟩⟩
  refine ⟨?_, hmem⟩
  obtain ⟨files, hfiles, rfl⟩ := compileFilePaths_eq_ok.1 h
  have hnodup : (Path.sort (files.filter (endsIn ·.name rules.compileSuffix))).Nodup :=
    List.nodup_mergeSort.2 ((Files.projectFiles_nodup hw hfiles).filter _)
  refine ((Path.pairwise_sort _).and hnodup).imp_of_mem fun {p q} hp hq hpq => ?_
  obtain ⟨pnames, rfl, -⟩ := ((hmem p).1 hp).reached.exists_below hw
  obtain ⟨qnames, rfl, -⟩ := ((hmem q).1 hq).reached.exists_below hw
  exact Path.parts_lt_of_le (by rw [Path.below_anchor, Path.below_anchor]) hpq.1 hpq.2

theorem references_eq_ok {ds : List Diagnostic} : (references fs rules project).outcome = .ok ds ↔
    ∃ ofConfig files ofCompileFiles, (buildConfig fs rules project).outcome = .ok ofConfig ∧
      compileFilePaths fs rules project = .ok files ∧ (Logged.collect (compileFile fs project) files).outcome = .ok ofCompileFiles ∧
      ds = ofConfig ++ ofCompileFiles := by
  simp only [references, compileFiles, Logged.bind_eq_ok, Logged.pure_eq_ok, Logged.outcome_ofExcept, Logged.outcome_ok,
    Except.ok.injEq]
  constructor
  · rintro ⟨ofConfig, hconfig, ofCompileFiles, ⟨files, hfiles, hcompile⟩, rfl⟩
    exact ⟨ofConfig, files, ofCompileFiles, hconfig, hfiles, hcompile, rfl⟩
  · rintro ⟨ofConfig, files, ofCompileFiles, hconfig, hfiles, hcompile, rfl⟩
    exact ⟨ofConfig, hconfig, ofCompileFiles, ⟨files, hfiles, hcompile⟩, rfl⟩

/-- The compile files of a project, when the walk comes to them in ascending order. -/
theorem compileFilePaths_of_pairwise {files paths : List Path} (h : projectFiles fs rules project = .ok files)
    (hpaths : files.filter (endsIn ·.name rules.compileSuffix) = paths) (hsorted : paths.Pairwise fun p q => Path.le p q) :
    compileFilePaths fs rules project = .ok paths :=
  compileFilePaths_eq_ok.2 ⟨files, h, by rw [hpaths, Path.sort_eq_self hsorted]⟩

/-- What is reported of the files that a build refers to, if all that has to be looked up for it can be: of the build configuration, and
then of each compile file that is reached from the project, in ascending order of the names on their paths. Each diagnostic tells
which file and, if one is missing, which source it is about. -/
theorem references_exact (hw : fs.WellFormed) {ds : List Diagnostic} (h : (references fs rules project).outcome = .ok ds) :
    ∃ ofConfig ofCompileFiles, ds = ofConfig ++ ofCompileFiles ∧ IsConfigReport fs rules project ofConfig ∧
      (∃ (files : List Path) (report : Path → List Diagnostic), (files.Pairwise fun p q => p.parts < q.parts) ∧
        (∀ p, p ∈ files ↔ IsCompileFile fs rules project p) ∧ (∀ p ∈ files, IsCompileReport fs project p (report p)) ∧
        ofCompileFiles = files.flatMap report) ∧
      ∀ d ∈ ds, IsTelling fs project d := by
  obtain ⟨ofConfig, files, ofCompileFiles, hconfig, hfiles, hcompile, rfl⟩ := references_eq_ok.1 h
  obtain ⟨report, hreport, rfl⟩ := Logged.collect_eq_ok.1 hcompile
  obtain ⟨hsorted, hmem⟩ := compileFilePaths_exact hw hfiles
  have hofConfig := isConfigReport_of_buildConfig hconfig
  have hofFile : ∀ p ∈ files, IsCompileReport fs project p (report p) := fun p hp => isCompileReport_of_compileFile (hreport p hp)
  refine ⟨ofConfig, _, rfl, hofConfig, ⟨files, report, hsorted, hmem, hofFile, rfl⟩, ?_⟩
  rw [List.forall_mem_append]
  refine ⟨hofConfig.isTelling, fun d hd => ?_⟩
  obtain ⟨p, hp, hd⟩ := List.mem_flatMap.1 hd
  exact (hofFile p hp).isTelling d hd

end Check

namespace ReferencedFiles

/-- A build configuration with an entry whose source does not exist, one whose source does, and one that is no map. -/
def config : List UInt8 :=
  SampleTree.octetsOf "\x7b\"projects\": [\x7b\"name\": \"a\", \"path\": \"gone.tact\"\x7d, \x7b\"path\": \"here.tact\"\x7d, 1]\x7d"

/-- A compile file that declares a source twice which does not exist, and one between which does. -/
def compileFile : List UInt8 := SampleTree.octetsOf "targets: ['gone.fc', 'here.tact', 'gone.fc']"

/-- A project with these two, and with a compile file that is no text. -/
def tree : FileSystem where
  entries := [("w", .dir [("a.compile.ts", .file compileFile), ("b.compile.ts", .file [0xFF]), ("here.tact", .file []),
    ("tact.config.json", .file config)])]

/-- What is reported of it. -/
def reported : List Diagnostic :=
  [Check.buildEntryDiagnostic {} { name := "a", path := "gone.tact" },
    Check.targetDiagnostic "a.compile.ts" "targets 数组" "gone.fc", Check.targetDiagnostic "a.compile.ts" "targets 数组" "gone.fc",
    Check.compileFileDiagnostic "b.compile.ts" (.encoding ⟨.start, 0, 0xFF, 1⟩)]

/-- A compile file, so deep in the project that the path of its directory is too long. -/
def deepTree : FileSystem where
  entries := [("w", .dir (Locations.nested [("a.compile.ts", .file (SampleTree.octetsOf "target: 'gone'"))] 196))]

set_option maxRecDepth 20000 in
theorem deepTree_wellFormed : deepTree.WellFormed := by decide

end ReferencedFiles

namespace Check

/-- The entry and both targets that do not exist are reported, and the file that is no text. -/
theorem references_exact_tree :
    (references ReferencedFiles.tree {} (.absolute ["w"])).outcome = .ok ReferencedFiles.reported ∧
      (∀ d ∈ ReferencedFiles.reported, IsTelling ReferencedFiles.tree (.absolute ["w"]) d) ∧
      ∃ ofConfig ofCompileFiles, ReferencedFiles.reported = ofConfig ++ ofCompileFiles ∧
        IsConfigReport ReferencedFiles.tree {} (.absolute ["w"]) ofConfig := by
  have hw : ReferencedFiles.tree.WellFormed := by decide
  have hrun : (references ReferencedFiles.tree {} (.absolute ["w"])).outcome = .ok ReferencedFiles.reported := by
    have hfiles : projectFiles ReferencedFiles.tree {} (.absolute ["w"]) = .ok
        (["a.compile.ts", "b.compile.ts", "here.tact", "tact.config.json"].map fun name => .absolute ["w", name]) := by decide +kernel
    have hpaths : compileFilePaths ReferencedFiles.tree {} (.absolute ["w"]) =
        .ok [.absolute ["w", "a.compile.ts"], .absolute ["w", "b.compile.ts"]] :=
      compileFilePaths_of_pairwise hfiles (by decide +kernel) (by decide +kernel)
    exact references_eq_ok.2 ⟨ReferencedFiles.reported.take 1, _, ReferencedFiles.reported.drop 1, by decide +kernel, hpaths,
      by decide +kernel, rfl⟩
  obtain ⟨ofConfig, ofCompileFiles, hparts, hofConfig, -, htelling⟩ := references_exact hw hrun
  exact ⟨hrun, htelling, ofConfig, ofCompileFiles, hparts, hofConfig⟩

/-- A compile file to which directories lead is passed over when the path of its directory is too long, also if it names a source
that does not exist. -/
theorem references_omit_deep_files : ReferencedFiles.deepTree.WellFormed ∧
    (∃ directory, ReferencedFiles.deepTree.LeadsDown ({} : Rules).enters (.absolute ["w"]) directory
      [("a.compile.ts", .file (SampleTree.octetsOf "target: 'gone'"))]) ∧
      endsIn "a.compile.ts" ({} : Rules).compileSuffix = true ∧
      (references ReferencedFiles.deepTree {} (.absolute ["w"])).outcome = .ok [] := by
  have hfiles : projectFiles ReferencedFiles.deepTree {} (.absolute ["w"]) = .ok [] := by decide +kernel
  have hpaths := compileFilePaths_of_pairwise hfiles rfl List.Pairwise.nil
  refine ⟨ReferencedFiles.deepTree_wellFormed, ?_, by decide, references_eq_ok.2 ⟨[], [], [], by decide +kernel, hpaths, rfl, rfl⟩⟩
  refine ⟨_, _, List.replicate 196 "directory-of-project", rfl, Discovery.Candidates.at?_nested _ 196, fun x hx => ?_, rfl⟩
  rw [List.eq_of_mem_replicate hx]
  decide

end Check

end WorkspaceLint
