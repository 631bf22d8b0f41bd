import WorkspaceLint.Proofs.Checks
import WorkspaceLint.Proofs.Manifests
import WorkspaceLint.Proofs.LintRun
import WorkspaceLint.Proofs.SampleTree
import WorkspaceLint.Proofs.Surroundings
import WorkspaceLint.Report.Plain

/-!
# Locations in the text report

The text of a diagnostic shows its location, as long as it is about no project below the scan root or does not rely on its message
(`lint_shows`). A message that names the place itself does so as it is seen from the root of the project: it shows the location
when that is the scan root, and only what follows the path of the project when it lies deeper.
-/

namespace WorkspaceLint

open Files (FileSystem IsEntryName)

/-- A text shows another one: the other one stands in it. -/
def Shows (text part : String) : Prop := part.toList <:+: text.toList

namespace Shows

theorem refl (s : String) : Shows s s := List.infix_rfl

theorem trans {s t u : String} (h : Shows s t) (h' : Shows t u) : Shows s u := List.IsInfix.trans h' h

theorem append_left {s t : String} (h : Shows s t) (before : String) : Shows (before ++ s) t := by
  rw [Shows, String.toList_append]
  exact List.IsInfix.trans h (List.suffix_append _ _).isInfix

theorem append_right {s t : String} (h : Shows s t) (after : String) : Shows (s ++ after) t := by
  rw [Shows, String.toList_append]
  exact List.IsInfix.trans h (List.prefix_append _ _).isInfix

/-- Texts in a row with something between them show each of the texts. -/
theorem intercalate {t : String} {ts : List String} (h : t ∈ ts) (between : String) : Shows (between.intercalate ts) t := by
  rw [Shows, String.toList_intercalate, List.intercalate]
  apply List.infix_of_mem_flatten
  obtain ⟨i, hi⟩ := List.mem_iff_getElem?.1 (List.mem_map_of_mem (f := String.toList) h)
  exact List.mem_of_getElem? (List.getElem?_intersperse_two_mul.trans hi)

end Shows

namespace Report

/-- The text report shows the text of each diagnostic. -/
theorem plain_shows {ds : List Diagnostic} {d : Diagnostic} (h : d ∈ ds) : Shows (plain ds) (plainDiagnostic d) := by
  rw [plain, if_neg (List.ne_nil_of_mem h)]
  refine Shows.intercalate (List.mem_cons_of_mem _ (List.mem_flatMap.2 ⟨d.kind, DiagnosticKind.mem_all _, ?_⟩)) _
  have hmem : d ∈ ds.filter (·.kind = d.kind) := List.mem_filter.2 ⟨h, by simp⟩
  rw [sectionLines, if_neg (List.ne_nil_of_mem hmem)]
  exact List.mem_append_right _ (List.mem_map_of_mem hmem)

/-- The text of a diagnostic shows its message. -/
theorem plainDiagnostic_shows_message (d : Diagnostic) : Shows (plainDiagnostic d) d.message := by
  rw [plainDiagnostic]
  split
  · exact (Shows.refl _).append_left _
  · exact Shows.refl _
  · exact ((Shows.refl _).append_left _).append_right _
  · exact ((Shows.refl _).append_left _).append_right _

/-- The text of a diagnostic about the structure of a project shows its location. -/
theorem plainDiagnostic_shows_structure {d : Diagnostic} (h : d.kind = .structureInvalid) :
    Shows (plainDiagnostic d) d.location := by
  rw [plainDiagnostic, h]
  exact (((Shows.refl _).append_left _).append_right _).append_right _

/-- The text of a diagnostic about a name or a file that is referred to shows its location when the message does not claim to. -/
theorem plainDiagnostic_shows_appended {d : Diagnostic} (h : d.kind = .namingMismatch ∨ d.kind = .missingReferencedFile)
    (hn : d.namesLocation = false) : Shows (plainDiagnostic d) d.location := by
  have hheaded : ∀ heading, Shows (headed heading d) d.location := by
    intro heading
    rw [headed, hn]
    exact (((Shows.refl _).append_left _).append_right _).append_left _
  rw [plainDiagnostic]
  rcases h with h | h
  · rw [h]
    exact hheaded _
  · rw [h]
    exact hheaded _

end Report

/-! ## Diagnostics of a project -/

/-- How the text of a diagnostic of a project shows its location, which is seen from the root of the project. -/
inductive IsPlaced (d : Diagnostic) : Prop where
  /-- The text of every diagnostic of the kind shows it. -/
  | byKind (kind : d.kind = .structureInvalid) : IsPlaced d
  /-- The location follows the message. -/
  | byReport (kind : d.kind = .namingMismatch ∨ d.kind = .missingReferencedFile) (appended : d.namesLocation = false) :
      IsPlaced d
  /-- The message shows the location, which is a path of some names. -/
  | byMessage (names : List String) (named : d.namesLocation = true) (isPart : ∀ x ∈ names, IsPart x)
      (location : d.location = (Path.ofParts names).text) (shows : Shows d.message d.location) : IsPlaced d

namespace Check

theorem isPlaced_contractNames {files : List SourceFile} {d : Diagnostic} (h : d ∈ contractNames files) : IsPlaced d := by
  obtain ⟨f, -, hf⟩ := List.mem_filterMap.1 h
  rw [contractDiagnostic?] at hf
  split at hf
  · cases hf
  · cases hf
    exact .byReport (Or.inl rfl) rfl

theorem isPlaced_scriptNames {files : List SourceFile} {d : Diagnostic} (h : d ∈ scriptNames files) : IsPlaced d := by
  obtain ⟨f, -, hf⟩ := List.mem_filterMap.1 h
  rw [scriptDiagnostic?] at hf
  split at hf
  · cases hf
  · cases hf
    exact .byReport (Or.inl rfl) rfl

theorem isPlaced_wrapperName {fs : FileSystem} {rules : Rules} {f : SourceFile} {ds : List Diagnostic}
    (h : (wrapperName fs rules f).outcome = .ok ds) : ∀ d ∈ ds, IsPlaced d := by
  rw [wrapperName] at h
  split at h
  · cases h
    simpa using IsPlaced.byReport (Or.inl rfl) rfl
  · split at h
    · cases h
      simp
    · split at h
      · cases h
        intro d hd
        rw [wrapperClassDiagnostics] at hd
        split at hd
        · split at hd
          · cases hd
          · rw [List.mem_singleton.1 hd]
            exact .byReport (Or.inl rfl) rfl
        · cases hd
      · cases h
        simpa using IsPlaced.byKind rfl

/-- What is missing in a list of sources is reported by the diagnostic of one of them. -/
theorem exists_of_mem_missingDiagnostics {α : Type} {fs : FileSystem} {project : Path} {path : α → String}
    {diagnostic : α → Diagnostic} {declared : List α} {ds : List Diagnostic}
    (h : (missingDiagnostics fs project path diagnostic declared).outcome = .ok ds) {d : Diagnostic} (hd : d ∈ ds) :
    ∃ a ∈ declared, d = diagnostic a := by
  obtain ⟨g, hg, rfl⟩ := Logged.collect_eq_ok.1 h
  obtain ⟨a, ha, hda⟩ := List.mem_flatMap.1 hd
  refine ⟨a, ha, ?_⟩
  have hga := hg a ha
  rw [Logged.outcome_ofExcept] at hga
  cases hm : isMissing fs project (path a) with
  | error e =>
    rw [hm] at hga
    nomatch hga
  | ok missing =>
    rw [hm] at hga
    rw [← Except.ok.inj hga] at hda
    cases missing with
    | true => exact List.mem_singleton.1 hda
    | false => nomatch hda

/-- A build configuration is named by the messages about it. -/
theorem isPlaced_buildConfig {fs : FileSystem} {rules : Rules} (hname : IsPart rules.buildConfigName) {project : Path}
    {ds : List Diagnostic} (h : (buildConfig fs rules project).outcome = .ok ds) : ∀ d ∈ ds, IsPlaced d := by
  rcases buildConfig_eq_ok.1 h with ⟨-, rfl⟩ | ⟨-, ⟨fault, -, rfl⟩ | ⟨v, -, hds⟩⟩
  · simp
  · simpa using IsPlaced.byKind rfl
  · intro d hd
    obtain ⟨entry, -, rfl⟩ := exists_of_mem_missingDiagnostics hds hd
    refine .byMessage [rules.buildConfigName] rfl (by simpa using hname) ?_ ?_
    · rw [Path.text_ofParts_singleton]
      rfl
    · dsimp only [buildEntryDiagnostic]
      exact (((((Shows.refl _).append_right _).append_right _).append_right _).append_right _).append_right _

/-- A compile file is named by the messages about it. -/
theorem isPlaced_compileFile {fs : FileSystem} {project path : Path} {names : List String} (hpath : path = project.below names)
    (hnames : ∀ x ∈ names, IsPart x) {ds : List Diagnostic} (h : (compileFile fs project path).outcome = .ok ds) :
    ∀ d ∈ ds, IsPlaced d := by
  have hlocation : relativeLocation path project = (Path.ofParts names).text := by
    rw [relativeLocation, hpath, Path.below_relativeTo?]
  rw [compileFile] at h
  split at h
  · cases h
    simpa using IsPlaced.byKind rfl
  · split at h
    · intro d hd
      obtain ⟨target, -, rfl⟩ := exists_of_mem_missingDiagnostics h hd
      refine .byMessage names rfl hnames hlocation ?_
      dsimp only [targetDiagnostic]
      exact (((((Shows.refl _).append_right _).append_right _).append_right _).append_right _).append_right _
    · cases h
      simp

theorem isPlaced_compileFiles {fs : FileSystem} (hw : fs.WellFormed) {rules : Rules} {project : Path} {ds : List Diagnostic}
    (h : (compileFiles fs rules project).outcome = .ok ds) : ∀ d ∈ ds, IsPlaced d := by
  simp only [compileFiles, Logged.bind_eq_ok, Logged.outcome_ofExcept] at h
  obtain ⟨paths, hpaths, h⟩ := h
  obtain ⟨g, hg, rfl⟩ := Logged.collect_eq_ok.1 h
  intro d hd
  obtain ⟨path, hpath, hd⟩ := List.mem_flatMap.1 hd
  obtain ⟨names, hbelow, hnames⟩ := ((mem_compileFilePaths_iff hw hpaths).1 hpath).1.exists_below hw
  exact isPlaced_compileFile hbelow (fun x hx => (hnames x hx).isPart) (hg path hpath) d hd

/-- What is reported of files of the same name is about one of those listed, with a message that lists them all. -/
theorem exists_of_mem_duplicateDiagnostics {rules : Rules} {members : List String} {d : Diagnostic}
    (h : d ∈ duplicateDiagnostics rules members) :
    d.namesLocation = true ∧ Shows d.message d.location ∧ d.location ∈ members := by
  obtain ⟨member, hmem, rfl⟩ := List.mem_map.1 h
  refine ⟨rfl, ?_, hmem⟩
  dsimp only
  exact ((Shows.intercalate hmem _).append_left _).append_right _

/-- Files of the same name are named by the messages about them. -/
theorem isPlaced_duplicateNames {fs : FileSystem} (hw : fs.WellFormed) {rules : Rules} {project : Path} {ds : List Diagnostic}
    (h : (duplicateNames fs rules project).outcome = .ok ds) : ∀ d ∈ ds, IsPlaced d := by
  intro d hd
  obtain ⟨members, hmem, hlocations⟩ := exists_of_mem_duplicateNames hw h hd
  obtain ⟨hnamed, hshows, hlisted⟩ := exists_of_mem_duplicateDiagnostics hmem
  obtain ⟨path, r, hreach, hr, hlocation⟩ := hlocations _ hlisted
  obtain ⟨hra, hproject⟩ := Path.relativeTo?_eq_some hr
  obtain ⟨names, hbelow, hnames⟩ := hreach.exists_below hw
  have hparts : ∀ x ∈ r.parts, IsPart x :=
    Path.isPart_of_below_join (Path.isPart_ofString _) (fun x hx => (hnames x hx).isPart) (hbelow.symm.trans hproject)
  refine .byMessage r.parts hnamed hparts ?_ hshows
  rw [hlocation, Path.ofParts, ← hra]

end Check

/-- The text of a diagnostic of a project shows its location, as it is seen from the root of the project. -/
theorem isPlaced_projectDiagnostics {fs : FileSystem} (hw : fs.WellFormed) {rules : Rules}
    (hname : IsPart rules.buildConfigName) {namingDirs : List String} {project : Path} {ds : List Diagnostic}
    (h : (projectDiagnostics fs rules namingDirs project).outcome = .ok ds) : ∀ d ∈ ds, IsPlaced d := by
  obtain ⟨files, duplicates, wrappers, references, -, hduplicates, hwrappers, hreferences, rfl⟩ :=
    projectDiagnostics_eq_ok.1 h
  obtain ⟨g, hg, rfl⟩ := Logged.collect_eq_ok.1 hwrappers
  simp only [Check.references, Logged.bind_eq_ok, Logged.pure_eq_ok, Logged.outcome_ok, Except.ok.injEq] at hreferences
  obtain ⟨ofConfig, hconfig, ofCompileFiles, hcompile, rfl⟩ := hreferences
  intro d hd
  simp only [List.mem_append, List.mem_flatMap] at hd
  rcases hd with (((hd | hd) | ⟨f, hf, hd⟩) | hd) | hd | hd
  · exact Check.isPlaced_contractNames hd
  · exact Check.isPlaced_duplicateNames hw hduplicates d hd
  · exact Check.isPlaced_wrapperName (hg f hf) d hd
  · exact Check.isPlaced_scriptNames hd
  · exact Check.isPlaced_buildConfig hname hconfig d hd
  · exact Check.isPlaced_compileFiles hw hcompile d hd

/-! ## Diagnostics of a run -/

/-- A diagnostic that relies on its message, which shows only what follows the path of a project in its location. -/
def ShownInside (scanRoot project : Path) (d : Diagnostic) : Prop :=
  d.namesLocation = true ∧ ∃ inside, Shows (Report.plainDiagnostic d) inside ∧
    d.location = relativeLocation (project.join (Path.ofString inside)) scanRoot

/-- Seen from the scan root the location of a diagnostic of a project is shown, or the project is another directory and what
follows its path is shown. -/
theorem IsPlaced.seenFrom {d : Diagnostic} (h : IsPlaced d) (scanRoot project : Path) :
    Shows (Report.plainDiagnostic (WorkspaceLint.seenFrom scanRoot project d)) (WorkspaceLint.seenFrom scanRoot project d).location ∨
      project ≠ scanRoot ∧ ShownInside scanRoot project (WorkspaceLint.seenFrom scanRoot project d) := by
  cases h with
  | byKind kind => exact Or.inl (Report.plainDiagnostic_shows_structure kind)
  | byReport kind appended => exact Or.inl (Report.plainDiagnostic_shows_appended kind appended)
  | byMessage names named isPart location shows =>
    have hread : Path.ofString d.location = .ofParts names := by
      rw [location]
      exact Path.ofString_text isPart
    have hmessage : Shows (Report.plainDiagnostic (WorkspaceLint.seenFrom scanRoot project d)) d.location :=
      (Report.plainDiagnostic_shows_message (WorkspaceLint.seenFrom scanRoot project d)).trans shows
    by_cases hroot : project = scanRoot
    · left
      have hsame : (WorkspaceLint.seenFrom scanRoot project d).location = d.location := by
        rw [WorkspaceLint.seenFrom, Diagnostic.relocated, hread, Path.join_relative (q := .ofParts names) rfl, hroot, relativeLocation,
          Path.below_relativeTo?, location]
        rfl
      rwa [hsame]
    · exact Or.inr ⟨hroot, named, d.location, hmessage, rfl⟩

/-- What the checks of a project report is shown, or the project is no scan root and what follows its path is shown. -/
theorem checkProject_shows {fs : FileSystem} (hw : fs.WellFormed) {rules : Rules} (hname : IsPart rules.buildConfigName)
    {namingDirs : List String} {scanRoot project : Path} {ds : List Diagnostic}
    (h : (checkProject fs rules namingDirs scanRoot project).outcome = .ok ds) : ∀ d ∈ ds,
      Shows (Report.plainDiagnostic d) d.location ∨ project ≠ scanRoot ∧ ShownInside scanRoot project d := by
  rw [outcome_checkProject] at h
  split at h
  · rename_i found hfound
    cases h
    intro _ hmem
    obtain ⟨d, hd, rfl⟩ := List.mem_map.1 hmem
    exact (isPlaced_projectDiagnostics hw hname hfound d hd).seenFrom scanRoot project
  · cases h
    intro d hd
    rw [List.mem_singleton.1 hd]
    exact Or.inl (Report.plainDiagnostic_shows_structure rfl)

/-- What is reported of a candidate directory is shown. -/
theorem Discovery.classify_shows {fs : FileSystem} {rules : Rules} {scanRoot directory : Path}
    {p : Candidate × List Diagnostic} (h : (classify fs rules scanRoot directory).outcome = .ok p) :
    ∀ d ∈ p.2, Shows (Report.plainDiagnostic d) d.location := by
  obtain ⟨c, ds⟩ := p
  obtain ⟨hasManifest, existing, -, -, hds, -⟩ := classify_eq_ok.1 h
  intro d hd
  cases hasManifest with
  | true => exact Report.plainDiagnostic_shows_structure (Check.kind_of_mem_structureOf hds d hd)
  | false =>
    cases hds
    dsimp only at hd
    split at hd
    · nomatch hd
    · rw [List.mem_singleton.1 hd]
      refine (Report.plainDiagnostic_shows_message _).trans ?_
      dsimp only [scaffoldDiagnostic]
      refine (Shows.intercalate (List.mem_append_left _ (List.mem_singleton_self _)) _).trans ?_
      exact ((((Shows.refl _).append_left _).append_right _).append_right _).append_right _

/-- What is reported of the directory above the scan root is about the structure of a workspace. -/
theorem Check.kind_of_mem_surroundings {fs : FileSystem} {rules : Rules} {path : Path} {ds : List Diagnostic}
    (h : (surroundings fs rules path).outcome = .ok ds) : ∀ d ∈ ds, d.kind = .structureInvalid := by
  rcases surroundings_eq_ok h with ⟨-, snapshot, -, rfl⟩ | ⟨-, rfl⟩
  · exact List.forall_mem_singleton.2 rfl
  · simp

/-- Every diagnostic of a run stands in the text report, and its text shows its location, unless it is about a project below the
scan root and relies on its message: then what follows the path of the project is shown. -/
theorem lint_shows {fs : FileSystem} (hw : fs.WellFormed) {rules : Rules} (hname : IsPart rules.buildConfigName)
    {namingDirs : List String} {scanRoot : Path} {report : LintReport}
    (h : (lint fs rules namingDirs scanRoot).outcome = .ok report) : ∀ d ∈ report.diagnostics,
      Shows (Report.plain report.diagnostics) (Report.plainDiagnostic d) ∧
        (Shows (Report.plainDiagnostic d) d.location ∨
          ∃ c ∈ report.candidates, c.isValid = true ∧ c.root ≠ report.scanRoot ∧ ShownInside report.scanRoot c.root d) := by
  intro d hd
  refine ⟨Report.plain_shows hd, ?_⟩
  obtain ⟨root, beside, found, inside, -, hbeside, hfound, hinside, rfl⟩ := lint_eq_ok.1 h
  simp only [List.mem_append] at hd
  rcases hd with (hd | hd) | hd
  · exact Or.inl (Report.plainDiagnostic_shows_structure (Check.kind_of_mem_surroundings hbeside d hd))
  · obtain ⟨_, dirs, g, -, -, hg, rfl⟩ := Discovery.discover_eq_ok.1 hfound
    obtain ⟨directory, hdirectory, hd⟩ := List.mem_flatMap.1 hd
    exact Or.inl (Discovery.classify_shows (hg directory hdirectory) d hd)
  · obtain ⟨g, hg, rfl⟩ := Logged.collect_eq_ok.1 hinside
    obtain ⟨project, hproject, hd⟩ := List.mem_flatMap.1 hd
    refine (checkProject_shows hw hname (hg project hproject) d hd).imp_right fun ⟨hroot, hshown⟩ => ?_
    obtain ⟨c, hc, rfl⟩ := List.mem_map.1 hproject
    obtain ⟨hmem, hvalid⟩ := List.mem_filter.1 hc
    exact ⟨c, hmem, hvalid, hroot, hshown⟩

namespace ShownLocations

/-- A project whose compile file declares a source that is not there. -/
def goneTree : FileSystem :=
  SampleTree.withProject
    [("wrappers", .dir [("Counter.compile.ts", .file (SampleTree.octetsOf "target: 'contracts/gone.tact'"))])]

/-- What is reported of the source, seen from above the project. -/
def goneDiagnostic : Diagnostic where
  kind := .missingReferencedFile
  location := "w/wrappers/Counter.compile.ts"
  message := "wrappers/Counter.compile.ts 的target 字段中声明的合约文件 'contracts/gone.tact' 不存在"
  namesLocation := true

theorem goneTree_wellFormed : goneTree.WellFormed := by decide

end ShownLocations

/-- Scanned from the project itself the source that is missing is reported with its location in the text. -/
theorem lint_shows_goneTree :
    ∃ report, (lint ShownLocations.goneTree {} characteristicDirs (.absolute ["w"])).outcome = .ok report ∧
      report.diagnostics.map (·.location) = ["wrappers/Counter.compile.ts"] ∧
      ∀ d ∈ report.diagnostics, Shows (Report.plain report.diagnostics) (Report.plainDiagnostic d) ∧
        (Shows (Report.plainDiagnostic d) d.location ∨
          ∃ c ∈ report.candidates, c.isValid = true ∧ c.root ≠ report.scanRoot ∧ ShownInside report.scanRoot c.root d) := by
  have hrun : (lint ShownLocations.goneTree {} characteristicDirs (.absolute ["w"])).outcome.toOption.map
      (fun report => report.diagnostics.map (·.location)) = some ["wrappers/Counter.compile.ts"] := by decide +kernel
  have hname : IsEntryName ({} : Rules).buildConfigName := by decide
  cases h : (lint ShownLocations.goneTree {} characteristicDirs (.absolute ["w"])).outcome with
  | error e =>
    rw [h] at hrun
    nomatch hrun
  | ok report =>
    rw [h] at hrun
    exact ⟨report, rfl, Option.some.inj hrun, lint_shows ShownLocations.goneTree_wellFormed hname.isPart h⟩

/-- Scanned from above the project the text does not show the location: it lacks the path of the project. -/
theorem lint_hides_project :
    ShownLocations.goneTree.WellFormed ∧ ∃ report,
      (lint ShownLocations.goneTree {} characteristicDirs (.absolute [])).outcome = .ok report ∧
        ∃ d ∈ report.diagnostics, d.location = "w/wrappers/Counter.compile.ts" ∧
          ¬Shows (Report.plainDiagnostic d) d.location := by
  refine ⟨ShownLocations.goneTree_wellFormed, ?_⟩
  have hrun : (lint ShownLocations.goneTree {} characteristicDirs (.absolute [])).outcome.toOption.map
      (·.diagnostics) = some [ShownLocations.goneDiagnostic] := by decide +kernel
  cases h : (lint ShownLocations.goneTree {} characteristicDirs (.absolute [])).outcome with
  | error e =>
    rw [h] at hrun
    nomatch hrun
  | ok report =>
    rw [h] at hrun
    refine ⟨report, rfl, ShownLocations.goneDiagnostic, ?_, rfl, ?_⟩
    · have hdiagnostics : report.diagnostics = [ShownLocations.goneDiagnostic] := Option.some.inj hrun
      rw [hdiagnostics]
      exact List.mem_singleton_self _
    · rw [Shows]
      decide +kernel

end WorkspaceLint
