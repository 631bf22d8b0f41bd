import WorkspaceLint.Check.References
import WorkspaceLint.Proofs.FileNames
import WorkspaceLint.Proofs.FilesByKey
import WorkspaceLint.Proofs.Files.Reach
import WorkspaceLint.Proofs.Files.Shape
import WorkspaceLint.Proofs.Outcome

/-!
# The checks of a project

For each check of a project, when it succeeds, what its diagnostics are about, and what has to hold of the project when it
succeeds and gives none.
-/

namespace WorkspaceLint.Check

open Files (FileSystem)

/-! ## Names -/

/-- Where no contract is reported every contract is named in snake_case. -/
theorem contractNames_clean {files : List SourceFile} (h : contractNames files = []) {f : SourceFile} (hf : f ∈ files)
    (hc : f.category = .contract) : f.stem = f.canonicalName := by
  rw [contractNames, List.filterMap_eq_nil_iff] at h
  have hno := h f (List.mem_filter.2 ⟨hf, by simpa using hc⟩)
  rw [contractDiagnostic?] at hno
  by_contra hne
  rw [if_neg hne] at hno
  nomatch hno

/-- Where no script is reported every script is named in lowerCamelCase. -/
theorem scriptNames_clean {files : List SourceFile} (h : scriptNames files = []) {f : SourceFile} (hf : f ∈ files)
    (hc : f.category = .script) : Naming.isLowerCamelCase f.stem = true := by
  rw [scriptNames, List.filterMap_eq_nil_iff] at h
  have hno := h f (List.mem_filter.2 ⟨hf, by simpa using hc⟩)
  rw [scriptDiagnostic?] at hno
  by_contra hne
  rw [if_neg hne] at hno
  nomatch hno

/-- A wrapper that is not reported is named in PascalCase, and one that is no compile file has a text that exports no class of
another name. -/
theorem wrapperName_clean {fs : FileSystem} {rules : Rules} {f : SourceFile} (h : (wrapperName fs rules f).outcome = .ok []) :
    Naming.isPascalCase (wrapperStem rules f) = true ∧
      (f.isCompileVariant = false → ∃ source, fs.text? f.path = .ok source ∧
        ∀ c, Source.exportedClass? source = some c → String.ofList c = wrapperStem rules f) := by
  rw [wrapperName] at h
  cases hp : Naming.isPascalCase (wrapperStem rules f) with
  | false => simp [hp] at h
  | true =>
    refine ⟨rfl, fun hv => ?_⟩
    rw [hp, hv] at h
    cases ht : fs.text? f.path with
    | error e => simp [ht, Except.bind] at h
    | ok source =>
      simp only [ht, Bool.not_true, Bool.false_eq_true, if_false, Logged.outcome_ok, Except.ok.injEq] at h
      refine ⟨source, rfl, fun c hc => ?_⟩
      rw [wrapperClassDiagnostics, hc] at h
      dsimp only at h
      by_contra hne
      rw [if_neg hne] at h
      nomatch h

/-- A wrapper is always checked, and what is reported is about the wrapper. -/
theorem exists_wrapperName (fs : FileSystem) (rules : Rules) (f : SourceFile) :
    ∃ ds, (wrapperName fs rules f).outcome = .ok ds ∧ ∀ d ∈ ds, d.location = f.location.text := by
  rw [wrapperName]
  split
  · exact ⟨_, rfl, by simp [wrapperStyleDiagnostic]⟩
  · split
    · exact ⟨_, rfl, by simp⟩
    · split
      · refine ⟨_, rfl, fun d hd => ?_⟩
        rw [wrapperClassDiagnostics] at hd
        split at hd
        · split at hd
          · nomatch hd
          · rw [List.mem_singleton.1 hd]
            rfl
        · nomatch hd
      · exact ⟨_, rfl, by simp [wrapperUnreadableDiagnostic]⟩

theorem wrapperNames_clean {fs : FileSystem} {rules : Rules} {files : List SourceFile}
    (h : (wrapperNames fs rules files).outcome = .ok []) {f : SourceFile} (hf : f ∈ files) (hc : f.category = .wrapper) :
    (wrapperName fs rules f).outcome = .ok [] :=
  Logged.collect_eq_nil.1 h f (List.mem_filter.2 ⟨hf, by simpa using hc⟩)

/-- A diagnostic that one of the rules for names gives for some files. -/
def IsNamingDiagnostic (fs : FileSystem) (rules : Rules) (files : List SourceFile) (d : Diagnostic) : Prop :=
  d ∈ contractNames files ∨ (∃ ds, (wrapperNames fs rules files).outcome = .ok ds ∧ d ∈ ds) ∨ d ∈ scriptNames files

/-- What the rules for names report is about one of the files. -/
theorem IsNamingDiagnostic.exists_file {fs : FileSystem} {rules : Rules} {files : List SourceFile} {d : Diagnostic}
    (h : IsNamingDiagnostic fs rules files d) : ∃ f ∈ files, d.location = f.location.text := by
  rcases h with h | ⟨ds, hds, hd⟩ | h
  · obtain ⟨f, hf, hd⟩ := List.mem_filterMap.1 h
    refine ⟨f, (List.mem_filter.1 hf).1, ?_⟩
    rw [contractDiagnostic?] at hd
    split at hd
    · cases hd
    · cases hd
      rfl
  · obtain ⟨g, hg, rfl⟩ := Logged.collect_eq_ok.1 hds
    obtain ⟨f, hf, hd⟩ := List.mem_flatMap.1 hd
    obtain ⟨ofFile, hofFile, hlocation⟩ := exists_wrapperName fs rules f
    rw [hg f hf] at hofFile
    cases hofFile
    exact ⟨f, (List.mem_filter.1 hf).1, hlocation d hd⟩
  · obtain ⟨f, hf, hd⟩ := List.mem_filterMap.1 h
    refine ⟨f, (List.mem_filter.1 hf).1, ?_⟩
    rw [scriptDiagnostic?] at hd
    split at hd
    · cases hd
    · cases hd
      rfl

/-! ## Files of the same name -/

/-- What is reported of files of the same name lists files that are reached from the directory of contracts, by their locations in
the project. -/
theorem exists_of_mem_duplicateNames {fs : FileSystem} (hw : fs.WellFormed) {rules : Rules} {project : Path}
    {ds : List Diagnostic} (h : (duplicateNames fs rules project).outcome = .ok ds) {d : Diagnostic} (hd : d ∈ ds) :
    ∃ members, d ∈ duplicateDiagnostics rules members ∧ ∀ member ∈ members, ∃ path location,
      fs.ReachesFile rules.enters (project.join (Path.ofString rules.contractsDir)) path ∧
        path.relativeTo? project = some location ∧ member = location.text := by
  obtain ⟨isDir, hdir, h'⟩ := Logged.bind_eq_ok.1 h
  cases isDir with
  | false =>
    cases h'
    cases hd
  | true =>
    obtain ⟨files, hfiles, hin, rfl⟩ := (duplicateNames_eq_ok hdir).1 h
    obtain ⟨p, hp, rfl⟩ := List.mem_map.1 hd
    have hlisted := List.mem_map_of_mem (f := (relativeLocation · project)) (mem_filesSharing_iff.1 hp).1
    refine ⟨_, List.mem_map.2 ⟨_, hlisted, rfl⟩, fun member hmember => ?_⟩
    obtain ⟨path, hpath, rfl⟩ := List.mem_map.1 hmember
    have hcompared := (mem_filesUnder.1 hpath).1
    obtain ⟨location, hlocation⟩ := Option.isSome_iff_exists.1 (Path.isWithin_iff.1 (hin path hcompared))
    refine ⟨path, location, (Files.mem_projectFiles_iff hw hfiles).1 (List.mem_filter.1 hcompared).1, hlocation, ?_⟩
    rw [relativeLocation, hlocation]

/-- Where no files of the same name are reported, files that are compared have different keys. -/
theorem duplicateNames_clean {fs : FileSystem} {rules : Rules} {project : Path}
    (hdir : fs.isDir? (project.join (Path.ofString rules.contractsDir)) = .ok true)
    (h : (duplicateNames fs rules project).outcome = .ok []) :
    ∃ files, projectFiles fs rules (project.join (Path.ofString rules.contractsDir)) = .ok files ∧
      ∀ f ∈ files, ∀ g ∈ files, isComparable f = true → isComparable g = true →
        Naming.duplicateKey f = Naming.duplicateKey g → f = g := by
  obtain ⟨files, hfiles, -, hds⟩ := (duplicateNames_eq_ok hdir).1 h
  have hnone : filesSharing project (files.filter isComparable) = [] := List.map_eq_nil_iff.1 hds.symm
  refine ⟨files, hfiles, fun f hf g hg hcf hcg hkey => ?_⟩
  have hff : f ∈ filesUnder project (files.filter isComparable) (Naming.duplicateKey f) :=
    mem_filesUnder.2 ⟨List.mem_filter.2 ⟨hf, hcf⟩, rfl⟩
  have hgf : g ∈ filesUnder project (files.filter isComparable) (Naming.duplicateKey f) :=
    mem_filesUnder.2 ⟨List.mem_filter.2 ⟨hg, hcg⟩, hkey.symm⟩
  by_contra hne
  have hshares := mem_filesSharing_iff.2 ⟨hff, fun hlen => hne (eq_of_length_lt_two hlen hff hgf)⟩
  rw [hnone] at hshares
  nomatch hshares

/-! ## Files that a build refers to -/

/-- Where no source in a list is reported every one exists. -/
theorem missingDiagnostics_clean {α : Type} {fs : FileSystem} {project : Path} {path : α → String} {diagnostic : α → Diagnostic}
    {declared : List α} (h : (missingDiagnostics fs project path diagnostic declared).outcome = .ok []) :
    ∀ a ∈ declared, fs.exists? (project.join (Path.ofString (path a))) = .ok true := by
  intro a ha
  have hno := Logged.collect_eq_nil.1 h a ha
  rw [Logged.outcome_ofExcept, isMissing] at hno
  cases he : fs.exists? (project.join (Path.ofString (path a))) with
  | error e => rw [he] at hno; nomatch hno
  | ok there =>
    rw [he] at hno
    cases there with
    | true => rfl
    | false => nomatch hno

/-- The sources in a list can be looked for when each of them can be looked up. -/
theorem exists_missingDiagnostics_iff {α : Type} {fs : FileSystem} {project : Path} {path : α → String}
    {diagnostic : α → Diagnostic} {declared : List α} :
    (∃ ds, (missingDiagnostics fs project path diagnostic declared).outcome = .ok ds) ↔
      ∀ a ∈ declared, ∃ there, fs.exists? (project.join (Path.ofString (path a))) = .ok there := by
  rw [missingDiagnostics, Logged.exists_collect_iff]
  refine forall₂_congr fun a _ => ?_
  rw [Logged.outcome_ofExcept, isMissing]
  cases fs.exists? (project.join (Path.ofString (path a))) <;> simp [Except.map]

/-- What is missing hangs on the shape of the tree alone. -/
theorem missingDiagnostics_congr {α : Type} {fs fs' : FileSystem} (h : Files.SameShape fs fs') (project : Path)
    (path : α → String) (diagnostic : α → Diagnostic) (declared : List α) :
    missingDiagnostics fs project path diagnostic declared = missingDiagnostics fs' project path diagnostic declared := by
  have hmissing : isMissing fs = isMissing fs' := by
    funext project path
    rw [isMissing, isMissing, h.exists?]
  rw [missingDiagnostics, missingDiagnostics, hmissing]

/-- What is reported of the sources in a list is about the place that all their diagnostics are about. -/
theorem location_of_mem_missingDiagnostics {α : Type} {fs : FileSystem} {project : Path} {path : α → String}
    {diagnostic : α → Diagnostic} {declared : List α} {ds : List Diagnostic} {location : String}
    (hloc : ∀ a, (diagnostic a).location = location)
    (h : (missingDiagnostics fs project path diagnostic declared).outcome = .ok ds) : ∀ d ∈ ds, d.location = location := by
  intro d hd
  obtain ⟨g, hg, rfl⟩ := Logged.collect_eq_ok.1 h
  obtain ⟨a, ha, hda⟩ := List.mem_flatMap.1 hd
  have hga := hg a ha
  rw [Logged.outcome_ofExcept, isMissing] at hga
  cases he : fs.exists? (project.join (Path.ofString (path a))) with
  | error e => rw [he] at hga; nomatch hga
  | ok there =>
    rw [he] at hga
    cases there with
    | true =>
      simp only [Except.map, Bool.not_true, Bool.false_eq_true, if_false, Except.ok.injEq] at hga
      rw [← hga] at hda
      nomatch hda
    | false =>
      simp only [Except.map, Bool.not_false, if_true, Except.ok.injEq] at hga
      rw [← hga, List.mem_singleton] at hda
      rw [hda, hloc]

/-- The build configuration is checked when it is not there, has no value, or names sources that can be looked up. -/
theorem buildConfig_eq_ok {fs : FileSystem} {rules : Rules} {project : Path} {ds : List Diagnostic} :
    (buildConfig fs rules project).outcome = .ok ds ↔
      (fs.exists? (project.join (Path.ofString rules.buildConfigName)) = .ok false ∧ ds = []) ∨
        (fs.exists? (project.join (Path.ofString rules.buildConfigName)) = .ok true ∧
          ((∃ fault, loadJson fs (project.join (Path.ofString rules.buildConfigName)) = .ok (.error fault) ∧
              ds = [buildConfigDiagnostic rules fault]) ∨
            ∃ v, loadJson fs (project.join (Path.ofString rules.buildConfigName)) = .ok (.ok v) ∧
              (missingDiagnostics fs project BuildEntry.path (buildEntryDiagnostic rules) (buildEntries v)).outcome =
                .ok ds)) := by
  rw [buildConfig, Logged.outcome_bind, Logged.outcome_ofExcept]
  cases fs.exists? (project.join (Path.ofString rules.buildConfigName)) with
  | error e => simp [Except.bind]
  | ok there =>
    cases there with
    | false => simp [Except.bind, eq_comm]
    | true =>
      simp only [Except.bind, Bool.not_true, Bool.false_eq_true, if_false, Logged.outcome_bind, Logged.outcome_ofExcept,
        Except.ok.injEq, Bool.true_eq_false, false_and, false_or, true_and]
      cases loadJson fs (project.join (Path.ofString rules.buildConfigName)) with
      | error e => simp
      | ok loaded =>
        cases loaded with
        | error fault => simp [Except.bind, eq_comm]
        | ok v => simp

/-- The build configuration can be checked when it can be looked up and loaded, and what it names can be looked up. -/
theorem exists_buildConfig_iff {fs : FileSystem} {rules : Rules} {project : Path} :
    (∃ ds, (buildConfig fs rules project).outcome = .ok ds) ↔
      ∃ there, fs.exists? (project.join (Path.ofString rules.buildConfigName)) = .ok there ∧
        (there = true → ∃ loaded, loadJson fs (project.join (Path.ofString rules.buildConfigName)) = .ok loaded ∧
          ∀ v, loaded = .ok v → ∀ e ∈ buildEntries v, ∃ b, fs.exists? (project.join (Path.ofString e.path)) = .ok b) := by
  simp only [buildConfig_eq_ok]
  constructor
  · rintro ⟨ds, ⟨ht, -⟩ | ⟨ht, ⟨fault, hl, -⟩ | ⟨v, hl, hds⟩⟩⟩
    · exact ⟨false, ht, fun h => (nomatch h)⟩
    · exact ⟨true, ht, fun _ => ⟨.error fault, hl, fun v h => (nomatch h)⟩⟩
    · refine ⟨true, ht, fun _ => ⟨.ok v, hl, fun v' h => ?_⟩⟩
      cases h
      exact exists_missingDiagnostics_iff.1 ⟨ds, hds⟩
  · rintro ⟨there, ht, h⟩
    cases there with
    | false => exact ⟨[], Or.inl ⟨ht, rfl⟩⟩
    | true =>
      obtain ⟨loaded, hl, h⟩ := h rfl
      cases loaded with
      | error fault => exact ⟨_, Or.inr ⟨ht, Or.inl ⟨fault, hl, rfl⟩⟩⟩
      | ok v =>
        obtain ⟨ds, hds⟩ := exists_missingDiagnostics_iff.2 (h v rfl)
        exact ⟨ds, Or.inr ⟨ht, Or.inr ⟨v, hl, hds⟩⟩⟩

/-- What is reported of the build configuration is about it. -/
theorem location_of_mem_buildConfig {fs : FileSystem} {rules : Rules} {project : Path} {ds : List Diagnostic}
    (h : (buildConfig fs rules project).outcome = .ok ds) : ∀ d ∈ ds, d.location = rules.buildConfigName := by
  rcases buildConfig_eq_ok.1 h with ⟨-, rfl⟩ | ⟨-, ⟨fault, -, rfl⟩ | ⟨v, -, hds⟩⟩
  · simp
  · simp [buildConfigDiagnostic]
  · exact location_of_mem_missingDiagnostics (fun _ => rfl) hds

/-- A build configuration for which nothing is reported is read, and the sources that it names exist. -/
theorem buildConfig_clean {fs : FileSystem} {rules : Rules} {project : Path}
    (hthere : fs.exists? (project.join (Path.ofString rules.buildConfigName)) = .ok true)
    (h : (buildConfig fs rules project).outcome = .ok []) :
    ∃ v, loadJson fs (project.join (Path.ofString rules.buildConfigName)) = .ok (.ok v) ∧
      ∀ e ∈ buildEntries v, fs.exists? (project.join (Path.ofString e.path)) = .ok true := by
  rcases buildConfig_eq_ok.1 h with ⟨ht, -⟩ | ⟨-, ⟨fault, -, hds⟩ | ⟨v, hl, hds⟩⟩
  · rw [hthere] at ht
    nomatch ht
  · nomatch hds
  · exact ⟨v, hl, missingDiagnostics_clean hds⟩

/-- A text declares no targets in no form. -/
theorem declaredTargets_none {s : List Char} {targets : List (List Char)} (h : Source.declaredTargets s = (targets, none)) :
    targets = [] := by
  rw [Source.declaredTargets] at h
  split at h
  · simp at h
  · split at h
    · simp at h
    · cases h
      rfl

/-- A compile file can be checked when the targets that its text declares can be looked up. -/
theorem exists_compileFile_iff {fs : FileSystem} {project path : Path} :
    (∃ ds, (compileFile fs project path).outcome = .ok ds) ↔
      ∀ source, fs.text? path = .ok source → ∀ t ∈ (Source.declaredTargets source).1,
        ∃ there, fs.exists? (project.join (Path.ofString (String.ofList t))) = .ok there := by
  rw [compileFile]
  cases ht : fs.text? path with
  | error e => exact ⟨fun _ _ h => (nomatch h), fun _ => ⟨_, rfl⟩⟩
  | ok source =>
    simp only [Except.ok.injEq, forall_eq']
    split
    · rename_i targets form hd
      rw [exists_missingDiagnostics_iff, hd]
      simp
    · rename_i targets hd
      rw [hd, declaredTargets_none hd]
      simp

/-- What is reported of a compile file is about the file. -/
theorem location_of_mem_compileFile {fs : FileSystem} {project path : Path} {ds : List Diagnostic}
    (h : (compileFile fs project path).outcome = .ok ds) : ∀ d ∈ ds, d.location = relativeLocation path project := by
  rw [compileFile] at h
  cases ht : fs.text? path with
  | error e =>
    rw [ht] at h
    cases h
    simp [compileFileDiagnostic]
  | ok source =>
    rw [ht] at h
    dsimp only at h
    split at h
    · exact location_of_mem_missingDiagnostics (fun _ => rfl) h
    · cases h
      simp

/-- A compile file for which nothing is reported is read, and the sources that it names exist. -/
theorem compileFile_clean {fs : FileSystem} {project path : Path} (h : (compileFile fs project path).outcome = .ok []) :
    ∃ source, fs.text? path = .ok source ∧ ∀ t ∈ (Source.declaredTargets source).1,
      fs.exists? (project.join (Path.ofString (String.ofList t))) = .ok true := by
  rw [compileFile] at h
  cases ht : fs.text? path with
  | error e => simp [ht, Except.bind] at h
  | ok source =>
    refine ⟨source, rfl, fun t hmem => ?_⟩
    rw [ht] at h
    dsimp only at h
    split at h
    · rename_i targets form hd
      rw [hd] at hmem
      exact missingDiagnostics_clean h _ (List.mem_map.2 ⟨t, hmem, rfl⟩)
    · rename_i targets hd
      rw [hd, declaredTargets_none hd] at hmem
      nomatch hmem

theorem compileFilePaths_eq_ok {fs : FileSystem} {rules : Rules} {project : Path} {paths : List Path} :
    compileFilePaths fs rules project = .ok paths ↔ ∃ files, projectFiles fs rules project = .ok files ∧
      paths = Path.sort (files.filter (endsIn ·.name rules.compileSuffix)) := by
  rw [compileFilePaths]
  cases projectFiles fs rules project with
  | error e => simp [Except.map]
  | ok files => simp [Except.map, eq_comm]

/-- The compile files of a project are the files that are reached from it and end as compile files do. -/
theorem mem_compileFilePaths_iff {fs : FileSystem} (hw : fs.WellFormed) {rules : Rules} {project : Path} {paths : List Path}
    (h : compileFilePaths fs rules project = .ok paths) {p : Path} :
    p ∈ paths ↔ fs.ReachesFile rules.enters project p ∧ endsIn p.name rules.compileSuffix = true := by
  obtain ⟨files, hfiles, rfl⟩ := compileFilePaths_eq_ok.1 h
  simp only [Path.sort, List.mem_mergeSort, List.mem_filter, Files.mem_projectFiles_iff hw hfiles]

theorem compileFiles_clean {fs : FileSystem} {rules : Rules} {project : Path}
    (h : (compileFiles fs rules project).outcome = .ok []) :
    ∃ paths, compileFilePaths fs rules project = .ok paths ∧ ∀ p ∈ paths, (compileFile fs project p).outcome = .ok [] := by
  simp only [compileFiles, Logged.bind_eq_ok, Logged.outcome_ofExcept] at h
  obtain ⟨paths, hp, h⟩ := h
  exact ⟨paths, hp, Logged.collect_eq_nil.1 h⟩

theorem references_clean {fs : FileSystem} {rules : Rules} {project : Path}
    (h : (references fs rules project).outcome = .ok []) :
    (buildConfig fs rules project).outcome = .ok [] ∧ (compileFiles fs rules project).outcome = .ok [] := by
  simp only [references, Logged.bind_eq_ok, Logged.pure_eq_ok, Logged.outcome_ok, Except.ok.injEq,
    List.append_eq_nil_iff] at h
  obtain ⟨_, h1, _, h2, rfl, rfl⟩ := h
  exact ⟨h1, h2⟩

end WorkspaceLint.Check
