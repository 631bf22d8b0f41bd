import WorkspaceLint.Proofs.Checks
import WorkspaceLint.Proofs.LintRun
import WorkspaceLint.Proofs.SourceScan

/-!
# What the checks of a project look at

`IsWalked` are the files that the three walks of a project come to, and `IsChecked` adds its build configuration. Whatever the
checks report is about one of these (`exists_isChecked`), and none of them lies outside of the project (`IsChecked.isWithin`).
-/

namespace WorkspaceLint

open Files (FileSystem Node IsEntryName)

/-! ## Paths that are checked -/

/-- A file that one of the walks of a project comes to. -/
inductive IsWalked (fs : FileSystem) (rules : Rules) (namingDirs : List String) (project : Path) : Path → Prop where
  /-- A source file below one of the directories whose names are checked. -/
  | sourceFile {files : List SourceFile} {f : SourceFile} (scan : (SourceFile.scan fs rules project namingDirs).outcome = .ok files)
      (mem : f ∈ files) : IsWalked fs rules namingDirs project (project.below f.location.parts)
  /-- A file that is reached from the directory of contracts. -/
  | contract {path : Path} (reach : fs.ReachesFile rules.enters (project.join (Path.ofString rules.contractsDir)) path)
      (within : path.IsWithin project) : IsWalked fs rules namingDirs project path
  /-- A compile file that is reached from the project. -/
  | compileFile {path : Path} (reach : fs.ReachesFile rules.enters project path)
      (name : endsIn path.name rules.compileSuffix = true) : IsWalked fs rules namingDirs project path

/-- A file that the checks of a project look at. -/
inductive IsChecked (fs : FileSystem) (rules : Rules) (namingDirs : List String) (project : Path) : Path → Prop where
  /-- A file that a walk comes to. -/
  | walked {path : Path} (walked : IsWalked fs rules namingDirs project path) : IsChecked fs rules namingDirs project path
  /-- The build configuration. -/
  | buildConfig (there : fs.exists? (project.child rules.buildConfigName) = .ok true) :
      IsChecked fs rules namingDirs project (project.child rules.buildConfigName)

variable {fs : FileSystem} {rules : Rules} {namingDirs : List String} {project path : Path}

/-- What is scanned in a project is seen from it along names of entries. -/
theorem location_of_mem_scan (hw : fs.WellFormed) {files : List SourceFile}
    (h : (SourceFile.scan fs rules project namingDirs).outcome = .ok files) {f : SourceFile} (hf : f ∈ files) :
    f.location = .ofParts f.location.parts ∧ ∀ x ∈ f.location.parts, IsEntryName x := by
  obtain ⟨root, position, content, -, hp, hat, hl⟩ := SourceFile.of_mem_scan h hf
  obtain ⟨hrelative, hbelow⟩ := Path.relativeTo?_eq_some hl
  rw [hp] at hbelow
  refine ⟨?_, fun x hx => (Node.WellFormed.below hw hat).2 x ?_⟩
  · rw [Path.ofParts, ← hrelative]
  · rw [show position = root.parts ++ f.location.parts from congrArg Path.parts hbelow]
    exact List.mem_append_right _ hx

/-- What is scanned in a canonical project lies there, at its location. -/
theorem path_of_mem_scan (hproject : fs.resolve project = .ok project) {files : List SourceFile}
    (h : (SourceFile.scan fs rules project namingDirs).outcome = .ok files) {f : SourceFile} (hf : f ∈ files) :
    f.path = project.below f.location.parts := by
  obtain ⟨root, -, -, hroot, -, -, hl⟩ := SourceFile.of_mem_scan h hf
  rw [hproject] at hroot
  cases hroot
  exact (Path.relativeTo?_eq_some hl).2

/-- The location of what lies below a project holds the names below. -/
theorem relativeLocation_below (project : Path) (names : List String) :
    relativeLocation (project.below names) project = (Path.ofParts names).text := by
  rw [relativeLocation, Path.below_relativeTo?]

/-- Nothing that is checked lies outside of the project. -/
theorem IsChecked.isWithin (hw : fs.WellFormed) (h : IsChecked fs rules namingDirs project path) : path.IsWithin project := by
  cases h with
  | buildConfig => exact ⟨[rules.buildConfigName], rfl⟩
  | walked hwalked =>
    cases hwalked with
    | sourceFile => exact ⟨_, rfl⟩
    | contract _ hwithin => exact hwithin
    | compileFile hreach _ =>
      obtain ⟨names, rfl, -⟩ := hreach.exists_below hw
      exact ⟨names, rfl⟩

/-! ## Diagnostics of a project -/

/-- What the checks of a project report is about something that they look at. -/
theorem exists_isChecked (hw : fs.WellFormed) (hname : IsPart rules.buildConfigName) {ds : List Diagnostic}
    (h : (projectDiagnostics fs rules namingDirs project).outcome = .ok ds) {d : Diagnostic} (hd : d ∈ ds) :
    ∃ path, IsChecked fs rules namingDirs project path ∧ d.location = relativeLocation path project := by
  obtain ⟨files, duplicates, wrappers, references, hscan, hduplicates, hwrappers, hreferences, rfl⟩ :=
    projectDiagnostics_eq_ok.1 h
  have hnamed : Check.IsNamingDiagnostic fs rules files d →
      ∃ path, IsChecked fs rules namingDirs project path ∧ d.location = relativeLocation path project := by
    intro hnaming
    obtain ⟨f, hf, hlocation⟩ := hnaming.exists_file
    refine ⟨_, .walked (.sourceFile hscan hf), ?_⟩
    rw [hlocation, relativeLocation_below, ← (location_of_mem_scan hw hscan hf).1]
  simp only [Check.references, Logged.bind_eq_ok, Logged.pure_eq_ok, Logged.outcome_ok, Except.ok.injEq] at hreferences
  obtain ⟨ofConfig, hconfig, ofCompileFiles, hcompile, rfl⟩ := hreferences
  simp only [List.mem_append] at hd
  rcases hd with (((hd | hd) | hd) | hd) | hd | hd
  · exact hnamed (Or.inl hd)
  · obtain ⟨members, hmem, hlocations⟩ := Check.exists_of_mem_duplicateNames hw hduplicates hd
    obtain ⟨member, hmember, rfl⟩ := List.mem_map.1 hmem
    obtain ⟨path, location, hreach, hl, rfl⟩ := hlocations member hmember
    refine ⟨path, .walked (.contract hreach (Path.isWithin_iff.2 ?_)), ?_⟩
    · rw [hl]
      rfl
    · rw [relativeLocation, hl]
  · exact hnamed (Or.inr (Or.inl ⟨wrappers, hwrappers, hd⟩))
  · exact hnamed (Or.inr (Or.inr hd))
  · have hthere : fs.exists? (project.child rules.buildConfigName) = .ok true := by
      rw [← Path.join_ofString_part hname]
      rcases Check.buildConfig_eq_ok.1 hconfig with ⟨-, rfl⟩ | ⟨hthere, -⟩
      · cases hd
      · exact hthere
    refine ⟨_, .buildConfig hthere, ?_⟩
    rw [Check.location_of_mem_buildConfig hconfig d hd, Path.child_eq_below, relativeLocation_below,
      Path.text_ofParts_singleton]
  · simp only [Check.compileFiles, Logged.bind_eq_ok, Logged.outcome_ofExcept] at hcompile
    obtain ⟨paths, hpaths, hcompile⟩ := hcompile
    obtain ⟨g, hg, rfl⟩ := Logged.collect_eq_ok.1 hcompile
    obtain ⟨path, hpath, hd⟩ := List.mem_flatMap.1 hd
    obtain ⟨hreach, hsuffix⟩ := (Check.mem_compileFilePaths_iff hw hpaths).1 hpath
    exact ⟨path, .walked (.compileFile hreach hsuffix), Check.location_of_mem_compileFile (hg path hpath) d hd⟩

/-- What is checked in a project has a path that is read back from its text, when the project has. -/
theorem IsChecked.isPart (hw : fs.WellFormed) (hname : IsPart rules.buildConfigName) {place : List String}
    (hplace : ∀ x ∈ place, IsEntryName x) (h : IsChecked fs rules namingDirs (.absolute place) path) :
    path.anchor ≠ .relative ∧ ∀ x ∈ path.parts, IsPart x := by
  obtain ⟨names, rfl⟩ := h.isWithin hw
  refine ⟨by exact nofun, List.forall_mem_append.2 ⟨fun x hx => (hplace x hx).isPart, ?_⟩⟩
  generalize hpath : (Path.absolute place).below names = path at h
  cases h with
  | buildConfig _ =>
    rw [Path.child_eq_below, Path.below_inj] at hpath
    rw [hpath]
    simpa using hname
  | walked hwalked =>
    cases hwalked with
    | sourceFile hscan hmem =>
      rw [Path.below_inj] at hpath
      rw [hpath]
      exact fun x hx => ((location_of_mem_scan hw hscan hmem).2 x hx).isPart
    | contract hreach _ =>
      obtain ⟨below, rfl, hbelow⟩ := hreach.exists_below hw
      exact Path.isPart_of_below_join (Path.isPart_ofString _) (fun x hx => (hbelow x hx).isPart) hpath.symm
    | compileFile hreach _ =>
      obtain ⟨below, rfl, hbelow⟩ := hreach.exists_below hw
      rw [Path.below_inj] at hpath
      rw [hpath]
      exact fun x hx => (hbelow x hx).isPart

/-- What is reported of a project is reported at the place of the project, where its checks failed, or of something that they look
at; the location leads there from the scan root. -/
theorem checkProject_place (hw : fs.WellFormed) (hname : IsPart rules.buildConfigName) {place : List String}
    (hplace : ∀ x ∈ place, IsEntryName x) {scanRoot : Path} {ds : List Diagnostic}
    (h : (checkProject fs rules namingDirs scanRoot (.absolute place)).outcome = .ok ds) {d : Diagnostic} (hd : d ∈ ds) :
    ∃ path, d.location = relativeLocation path scanRoot ∧ scanRoot.join (Path.ofString d.location) = path ∧
      (d.kind = .structureInvalid ∧ path = .absolute place ∨ IsChecked fs rules namingDirs (.absolute place) path) := by
  rw [outcome_checkProject] at h
  split at h
  · rename_i found hfound
    cases h
    obtain ⟨inner, hinner, rfl⟩ := List.mem_map.1 hd
    obtain ⟨path, hchecked, hlocation⟩ := exists_isChecked hw hname hfound hinner
    obtain ⟨hanchor, hparts⟩ := hchecked.isPart hw hname hplace
    have hback : (Path.absolute place).join (Path.ofString inner.location) = path := by
      rw [hlocation]
      exact join_relativeLocation hanchor hparts
    refine ⟨path, ?_, ?_, Or.inr hchecked⟩
    · rw [seenFrom, hback]
      rfl
    · rw [join_seenFrom (by exact nofun) (fun x hx => (hplace x hx).isPart), hback]
  · cases h
    rw [List.mem_singleton.1 hd]
    exact ⟨.absolute place, rfl, Files.join_location_absolute hplace scanRoot, Or.inl ⟨rfl, rfl⟩⟩

end WorkspaceLint
