import WorkspaceLint.Proofs.Checks
import WorkspaceLint.Proofs.ScanRoots
import WorkspaceLint.Proofs.SourceScan

/-!
# A run that reports nothing

When a run with the conventional rules succeeds and reports nothing, the tree is as the rules ask: every directory that the
search comes to is a project or no project at all, and every project is named and wired as it should be (`Sound`). What is said
of files is said of the tree itself, so a file that a check passed over by mistake would break it. A scan takes a file for what its
place says: when a target directory is a link to somewhere else, nothing is said of the files that are reached through it
(`lint_clean_linkedTree`).
-/

namespace WorkspaceLint

open Files (FileSystem Node)

/-- A name that ends as sources do, and neither as declaration files nor as tests do. -/
def IsPlainSource (name : String) : Prop :=
  endsIn name ".ts" = true ∧ endsIn name ".d.ts" = false ∧ endsIn name ".spec.ts" = false ∧ endsIn name ".test.ts" = false

/-- A file below a target directory of a project is named as the rules ask. -/
structure WellNamed (directory : String) (file : Path) (content : List UInt8) : Prop where
  /-- A contract is named in snake_case. -/
  contract : file.suffix ∈ [".tact", ".fc", ".func"] → file.stem = Naming.canonicalName file
  /-- The compile file of a wrapper is named in PascalCase. -/
  compileFile : directory = "wrappers" → IsPlainSource file.name → ∀ stem, file.name = stem ++ ".compile.ts" →
    Naming.isPascalCase stem = true
  /-- Any other wrapper is named in PascalCase, and its text exports no class of another name. -/
  wrapper : directory = "wrappers" → IsPlainSource file.name → endsIn file.name ".compile.ts" = false →
    ∀ stem, file.name = stem ++ ".ts" → Naming.isPascalCase stem = true ∧
      ∃ chars, Text.decode content = .ok chars ∧
        ∀ c, Source.exportedClass? (Text.unifyNewlines chars) = some c → String.ofList c = stem
  /-- A script is named in lowerCamelCase. -/
  script : directory = "scripts" → IsPlainSource file.name → Naming.isLowerCamelCase file.stem = true

/-- A source of a project, which lies below one of its target directories. The names of the walk that meets it are those of real
directories, from the place where a target directory leads to down to the file; that target directory may be a link, and then the
file may lie in another target directory than the one that it is reached from. -/
structure IsSource (fs : FileSystem) (project : Path) (directory : String) (names : List String) (content : List UInt8) : Prop where
  /-- The file is reached from a target directory, and stands at the place that the names lead to from the project. -/
  reached : ∃ place start r way, fs.resolve project = .ok (.absolute place) ∧ start ∈ characteristicDirs ∧
    fs.route (.absolute (place ++ [start])) = .ok r ∧ way ≠ [] ∧ r.node.at? way = some (.file content) ∧
    r.position ++ way = place ++ directory :: names
  /-- That place is in a target directory. -/
  target : directory ∈ characteristicDirs
  /-- It is below that directory. -/
  inside : names ≠ []
  /-- No name on the way is that of the dependency cache. -/
  outsideCache : "node_modules" ∉ names

/-- A project is named and wired as the rules ask. -/
structure SoundProject (fs : FileSystem) (project : Path) : Prop where
  /-- Every source is named as the rules ask of the target directory that it lies in. -/
  named : ∀ directory names content, IsSource fs project directory names content →
    WellNamed directory (project.below (directory :: names)) content
  /-- No two contracts have the same key. -/
  distinct : fs.isDir? (project.child "contracts") = .ok true → ∀ f g,
    fs.ReachesFile ({} : Rules).enters (project.child "contracts") f →
    fs.ReachesFile ({} : Rules).enters (project.child "contracts") g →
    Check.isComparable f = true → Check.isComparable g = true → Naming.duplicateKey f = Naming.duplicateKey g → f = g
  /-- The build configuration is read, and the sources that it names exist. -/
  config : fs.exists? (project.child "tact.config.json") = .ok true → ∃ v,
    loadJson fs (project.child "tact.config.json") = .ok (.ok v) ∧
      ∀ e ∈ Check.buildEntries v, fs.exists? (project.join (Path.ofString e.path)) = .ok true
  /-- Every compile file is read, and the sources that it names exist. -/
  compileFiles : ∀ f, fs.ReachesFile ({} : Rules).enters project f → endsIn f.name ".compile.ts" = true → ∃ source,
    fs.text? f = .ok source ∧ ∀ t ∈ (Source.declaredTargets source).1,
      fs.exists? (project.join (Path.ofString (String.ofList t))) = .ok true

/-- A report says of the tree what is so: directories with a manifest are projects, others hold no directory by which a project is
known, and projects are named and wired as the rules ask. -/
structure Sound (fs : FileSystem) (report : LintReport) : Prop where
  /-- Every directory that the search comes to is a project or none at all. -/
  directories : ∃ root, fs.resolve report.scanRoot = .ok root ∧ ∀ d es, fs.Reaches ({} : Rules).enters root d es →
    (fs.isFile? (d.child "package.json") = .ok true → ∃ c ∈ report.candidates, c.root = d ∧ c.classification = .valid) ∧
      (fs.isFile? (d.child "package.json") ≠ .ok true →
        ∀ name ∈ characteristicDirs, fs.isDir? (d.child name) ≠ .ok true)
  /-- Every project is named and wired as the rules ask. -/
  projects : ∀ c ∈ report.candidates, c.isValid = true → SoundProject fs c.root

namespace CleanRun

/-- The conventional directories are single names. -/
theorem isPart_characteristic {directory : String} (h : directory ∈ characteristicDirs) : IsPart directory := by
  have hall : ∀ x ∈ characteristicDirs, x ≠ "" ∧ x ≠ "." ∧ '/' ∉ x.toList := by decide
  exact hall directory h

/-! ## Files -/

/-- A file below a conventional directory belongs to that directory. -/
theorem targetOf?_characteristic {directory : String} (h : directory ∈ characteristicDirs) {names : List String}
    (hne : names ≠ []) :
    SourceFile.targetOf? (characteristicDirs.map Path.ofString) (.ofParts (directory :: names)) = some (.ofParts [directory]) := by
  obtain ⟨name, rest, rfl⟩ := List.exists_cons_of_ne_nil hne
  have hparent : (Path.ofParts (directory :: name :: rest)).parent.parts = directory :: (name :: rest).dropLast := rfl
  have htargets : characteristicDirs.map Path.ofString = characteristicDirs.map fun x => Path.ofParts [x] :=
    List.map_congr_left fun x hx => Path.ofString_part (isPart_characteristic hx)
  rw [SourceFile.targetOf?, hparent, htargets]
  have hcases : directory = "contracts" ∨ directory = "wrappers" ∨ directory = "scripts" ∨ directory = "tests" := by
    simpa [characteristicDirs] using h
  rcases hcases with rfl | rfl | rfl | rfl
  all_goals simp [characteristicDirs, Path.ofParts]

/-- Where a target directory is no link every file below it, along directories only and outside the dependency cache, is a
source. -/
theorem isSource_of_at? {fs : FileSystem} (hw : fs.WellFormed) {project : Path} {n : Node} (hn : fs.stat? project = .ok n)
    {directory : String} {names : List String} {content : List UInt8} (htarget : directory ∈ characteristicDirs)
    (hinside : names ≠ []) (hcache : "node_modules" ∉ names) (hat : n.at? (directory :: names) = some (.file content)) :
    IsSource fs project directory names content := by
  obtain ⟨-, place, hr⟩ := FileSystem.stat?_eq_ok.1 hn
  have hproject := FileSystem.resolve_of_route hr (FileSystem.nul_not_mem_of_route hw hr)
  obtain ⟨es, target, rfl, hlookup, hfile⟩ := Node.eq_dir_of_at?_cons hat
  have hplace : fs.at? (place ++ [directory]) = some target := by
    rw [FileSystem.at?_concat (FileSystem.route_spec hr).1, hlookup]
  have hdir : target.target? = none := by
    obtain ⟨name, rest, rfl⟩ := List.exists_cons_of_ne_nil hinside
    obtain ⟨inner, -, rfl, -, -⟩ := Node.eq_dir_of_at?_cons hfile
    rfl
  refine ⟨⟨place, directory, ⟨place ++ [directory], target⟩, names, hproject, htarget, hw.route_absolute hplace hdir, hinside,
    hfile, ?_⟩, htarget, hinside, hcache⟩
  rw [List.append_assoc, List.singleton_append]

/-- A source stands where its names lead to from the project. -/
theorem at?_of_isSource {fs : FileSystem} {project : Path} {directory : String} {names : List String} {content : List UInt8}
    {place : List String} (hproject : fs.resolve project = .ok (.absolute place))
    (h : IsSource fs project directory names content) : fs.at? (place ++ directory :: names) = some (.file content) := by
  obtain ⟨place', start, r, way, hplace', -, hr, -, hat, hposition⟩ := h.reached
  rw [hproject] at hplace'
  cases hplace'
  rw [← hposition, FileSystem.at?_append, (FileSystem.route_spec hr).1]
  exact hat

/-- A source is scanned with the category of the target directory that it lies in. -/
theorem exists_scanned {fs : FileSystem} (hw : fs.WellFormed) {project : Path} {files : List SourceFile}
    (hscan : (SourceFile.scan fs {} project characteristicDirs).outcome = .ok files) {place : List String}
    (hproject : fs.resolve project = .ok (.absolute place)) {directory : String} {names : List String} {content : List UInt8}
    (h : IsSource fs project directory names content)
    (hrel : SourceFile.isRelevantName {} (project.below (directory :: names)).name = true)
    {category : SourceCategory} {isCompileVariant : Bool}
    (hcat : SourceFile.categoryOf? {} (project.below (directory :: names)).name (project.below (directory :: names)).suffix
      directory = some (category, isCompileVariant)) :
    ∃ f ∈ files, f.path = .absolute (place ++ directory :: names) ∧ f.category = category ∧
      f.isCompileVariant = isCompileVariant := by
  obtain ⟨⟨place', start, r, way, hplace', hstart, hr, hway, hat, hposition⟩, hdir, hne, hcache⟩ := h
  rw [hproject] at hplace'
  cases hplace'
  have hname : (Path.absolute (place ++ directory :: names)).name = (project.below (directory :: names)).name :=
    (Path.below_name (.absolute place) (by simp)).trans (Path.below_name project (by simp)).symm
  have hlast : way.getLastD "" = (project.below (directory :: names)).name := by
    rw [← hname, ← hposition]
    exact (Path.below_name (.absolute r.position) hway).symm
  have hroot : (Path.absolute place).join (Path.ofString start) = .absolute (place ++ [start]) :=
    Path.join_ofString_part (isPart_characteristic hstart)
  have hdirCache : "node_modules" ≠ directory := by
    rintro rfl
    revert hdir
    decide
  have htarget : (Path.ofParts [directory]).name = directory := rfl
  have hlocation : SourceFile.ofLocation? {} (characteristicDirs.map Path.ofString) (.absolute (place ++ directory :: names))
      (.ofParts (directory :: names)) =
      some ⟨.absolute (place ++ directory :: names), .ofParts (directory :: names), category, isCompileVariant⟩ := by
    rw [SourceFile.ofLocation?, if_neg (by simp [Path.ofParts, hcache, hdirCache]), targetOf?_characteristic hdir hne,
      Option.bind_some, SourceFile.classify?, htarget, hname, Path.suffix_of_name hname, hcat]
    rfl
  have hbelow : (Path.absolute (place ++ directory :: names)).relativeTo? (.absolute place) =
      some (.ofParts (directory :: names)) := Path.below_relativeTo? (.absolute place) (directory :: names)
  have hmem : _ ∈ files := SourceFile.mem_scan_of_route hw hscan hproject hstart (by rwa [hroot]) hway hat (by rwa [hlast])
    (by rw [SourceFile.inProject, hposition, hbelow]; exact Option.mem_toList.2 hlocation)
  exact ⟨_, hmem, rfl, rfl, rfl⟩

/-- A plain source is looked at and is no contract or test. -/
theorem category_of_plainSource {p : Path} (h : IsPlainSource p.name) (directory : String) :
    SourceFile.isRelevantName {} p.name = true ∧ SourceFile.categoryOf? {} p.name p.suffix directory =
      if directory = "wrappers" then some (.wrapper, endsIn p.name ".compile.ts")
      else if directory = "scripts" then some (.script, false) else none := by
  obtain ⟨hts, hdts, hspec, htest⟩ := h
  constructor
  · rw [SourceFile.isRelevantName, hdts, Bool.not_false, Bool.true_and, List.any_eq_true]
    exact ⟨".ts", by decide, hts⟩
  · have htests : ({} : Rules).testSuffixes.any (endsIn p.name) = false := by simp [hspec, htest]
    rw [SourceFile.categoryOf?, if_neg (SourceFile.not_contract_of_source hts), htests, if_neg (by simp)]

/-- Where the checks of a project report nothing its sources are named as the rules ask. -/
theorem wellNamed {fs : FileSystem} (hw : fs.WellFormed) {project : Path} {files : List SourceFile}
    (hscan : (SourceFile.scan fs {} project characteristicDirs).outcome = .ok files)
    (hcontracts : Check.contractNames files = []) (hwrappers : (Check.wrapperNames fs {} files).outcome = .ok [])
    (hscripts : Check.scriptNames files = []) {directory : String} {names : List String} {content : List UInt8}
    (h : IsSource fs project directory names content) : WellNamed directory (project.below (directory :: names)) content := by
  obtain ⟨place, -, -, -, hproject, -⟩ := h.reached
  have hname : (Path.absolute (place ++ directory :: names)).name = (project.below (directory :: names)).name :=
    (Path.below_name (.absolute place) (by simp)).trans (Path.below_name project (by simp)).symm
  have hstem : (Path.absolute (place ++ directory :: names)).stem = (project.below (directory :: names)).stem :=
    Path.stem_of_name hname
  refine ⟨fun hsuffix => ?_, fun hd hs stem hfile => ?_, fun hd hs hno stem hfile => ?_, fun hd hs => ?_⟩
  · obtain ⟨f, hf, hp, hc, -⟩ := exists_scanned hw hscan hproject h
      (SourceFile.relevant_of_contract hsuffix) (by rw [SourceFile.categoryOf?, if_pos hsuffix])
    have hclean := Check.contractNames_clean hcontracts hf hc
    rw [SourceFile.stem, SourceFile.canonicalName, hp, Naming.canonicalName, hstem] at hclean
    exact hclean
  · subst hd
    obtain ⟨hrel, hcat⟩ := category_of_plainSource hs "wrappers"
    obtain ⟨f, hf, hp, hc, hv⟩ := exists_scanned hw hscan hproject h hrel hcat
    have hend : endsIn (project.below ("wrappers" :: names)).name ".compile.ts" = true := by
      rw [hfile]
      exact endsIn_append stem ".compile.ts"
    have hclean := (Check.wrapperName_clean (Check.wrapperNames_clean hwrappers hf hc)).1
    rw [Check.wrapperStem, hv, hend, if_pos rfl, SourceFile.name, hp, hname, hfile, withoutEnding_append stem (by decide)] at hclean
    exact hclean
  · subst hd
    obtain ⟨hrel, hcat⟩ := category_of_plainSource hs "wrappers"
    obtain ⟨f, hf, hp, hc, hv⟩ := exists_scanned hw hscan hproject h hrel hcat
    have hwrapperStem : Check.wrapperStem {} f = stem := by
      rw [Check.wrapperStem, hv, hno, if_neg (by decide), SourceFile.name, hp, hname, hfile,
        withoutEnding_append stem (by decide)]
    obtain ⟨hpascal, hclass⟩ := Check.wrapperName_clean (Check.wrapperNames_clean hwrappers hf hc)
    obtain ⟨source, htext, hclass⟩ := hclass (hv.trans hno)
    rw [hp] at htext
    obtain ⟨chars, hdecode, rfl⟩ := FileSystem.text?_of_at? hw (at?_of_isSource hproject h) htext
    rw [hwrapperStem] at hpascal hclass
    exact ⟨hpascal, chars, hdecode, hclass⟩
  · subst hd
    obtain ⟨hrel, hcat⟩ := category_of_plainSource hs "scripts"
    obtain ⟨f, hf, hp, hc, -⟩ := exists_scanned hw hscan hproject h hrel hcat
    have hclean := Check.scriptNames_clean hscripts hf hc
    rw [SourceFile.stem, hp, hstem] at hclean
    exact hclean

/-! ## Projects and directories -/

/-- A project for which nothing is reported is named and wired as the rules ask. -/
theorem soundProject {fs : FileSystem} (hw : fs.WellFormed) {scanRoot project : Path}
    (h : (checkProject fs {} characteristicDirs scanRoot project).outcome = .ok []) : SoundProject fs project := by
  obtain ⟨files, duplicates, wrappers, references, hscan, hdup, hwrap, href, hnil⟩ :=
    projectDiagnostics_eq_ok.1 (checkProject_clean h)
  simp only [List.nil_eq, List.append_eq_nil_iff] at hnil
  obtain ⟨⟨⟨⟨hcontracts, rfl⟩, rfl⟩, hscripts⟩, rfl⟩ := hnil
  obtain ⟨hconfig, hcompile⟩ := Check.references_clean href
  have hdirs : IsPart ({} : Rules).contractsDir := ⟨by decide, by decide, by decide⟩
  have hconf : IsPart ({} : Rules).buildConfigName := ⟨by decide, by decide, by decide⟩
  refine ⟨?_, ?_, ?_, ?_⟩
  · exact fun directory names content => wellNamed hw hscan hcontracts hwrap hscripts
  · intro hd f g hf hg hcf hcg hkey
    rw [← Path.join_ofString_part hdirs] at hd hf hg
    obtain ⟨paths, hpaths, hdistinct⟩ := Check.duplicateNames_clean hd hdup
    exact hdistinct f ((Files.mem_projectFiles_iff hw hpaths).2 hf) g ((Files.mem_projectFiles_iff hw hpaths).2 hg) hcf hcg
      hkey
  · intro hthere
    rw [← Path.join_ofString_part hconf] at hthere ⊢
    exact Check.buildConfig_clean hthere hconfig
  · intro f hf hend
    obtain ⟨paths, hpaths, hclean⟩ := Check.compileFiles_clean hcompile
    exact Check.compileFile_clean (hclean f ((Check.mem_compileFilePaths_iff hw hpaths).2 ⟨hf, hend⟩))

/-- Where the discovery reports nothing every directory that it comes to is a project or none at all. -/
theorem directories {fs : FileSystem} (hw : fs.WellFormed) {scanRoot : Path} {found : Discovery.Result}
    (h : (Discovery.discover fs {} scanRoot).outcome = .ok found) (hclean : found.diagnostics = []) :
    ∃ root, fs.resolve scanRoot = .ok root ∧ ∀ d es, fs.Reaches ({} : Rules).enters root d es →
      (fs.isFile? (d.child "package.json") = .ok true → ∃ c ∈ found.candidates, c.root = d ∧ c.classification = .valid) ∧
        (fs.isFile? (d.child "package.json") ≠ .ok true →
          ∀ name ∈ characteristicDirs, fs.isDir? (d.child name) ≠ .ok true) := by
  obtain ⟨root, dirs, g, hroot, hdirs, hg, rfl⟩ := Discovery.discover_eq_ok.1 h
  refine ⟨root, hroot, fun d es hd => ?_⟩
  have hmanifest : d.join (Path.ofString ({} : Rules).manifestName) = d.child "package.json" :=
    Path.join_ofString_part ⟨by decide, by decide, by decide⟩
  have hcandidate : d ∈ dirs → (g d).1 ∈ dirs.map (fun d => (g d).1) ∧ (g d).1.root = d ∧
      ((fs.isFile? (d.child "package.json") = .ok true ∧ (g d).1.classification = .valid) ∨
        (fs.isFile? (d.child "package.json") = .ok false ∧
          ∀ name ∈ characteristicDirs, fs.isDir? (d.child name) = .ok false)) := by
    intro hmem
    have hnone : (g d).2 = [] := List.flatMap_eq_nil_iff.1 hclean d hmem
    have hclassified : (Discovery.classify fs {} root d).outcome = .ok ((g d).1, []) := by
      rw [hg d hmem, ← hnone]
    obtain ⟨hcr, hc⟩ := Discovery.classify_clean hclassified
    rw [hmanifest] at hc
    refine ⟨List.mem_map.2 ⟨d, hmem, rfl⟩, hcr, hc.imp_right fun hc => ⟨hc.1, fun name hname => ?_⟩⟩
    rw [← Path.join_ofString_part (isPart_characteristic hname)]
    exact hc.2 name hname
  constructor
  · intro hfile
    have hd' : Discovery.IsCandidateDir fs {} root d :=
      Discovery.isCandidateDir_of_isFile hw hd ⟨by decide, by decide, by decide⟩ hfile
    obtain ⟨hmem, hcr, hc | hc⟩ := hcandidate ((Discovery.mem_candidateDirs_iff hw hdirs).2 hd')
    · exact ⟨_, hmem, hcr, hc.2⟩
    · rw [hfile] at hc
      nomatch hc.1
  · intro hfile name hname hdir
    have hstep : Files.IsStep name := by
      have hall : ∀ x ∈ characteristicDirs, x ≠ "." ∧ x ≠ ".." ∧ x.utf8ByteSize ≤ 255 := by decide
      exact hall name hname
    have henters : ({} : Rules).enters name = true := by
      have hall : ∀ x ∈ characteristicDirs, ({} : Rules).enters x = true := by decide
      exact hall name hname
    have hd' : Discovery.IsCandidateDir fs {} root d := Discovery.isCandidateDir_of_isDir hw hd hname hstep henters hdir
    obtain ⟨-, -, hc | hc⟩ := hcandidate ((Discovery.mem_candidateDirs_iff hw hdirs).2 hd')
    · exact hfile hc.1
    · have := hc.2 name hname
      rw [hdir] at this
      nomatch this

end CleanRun

/-- A run with the conventional rules that reports nothing is sound: whatever the tree holds, it is as the rules ask. -/
theorem lint_clean_sound {fs : FileSystem} (hw : fs.WellFormed) {scanRoot : Path} {report : LintReport}
    (h : (lint fs {} characteristicDirs scanRoot).outcome = .ok report) (hclean : report.isClean = true) :
    Sound fs report := by
  obtain ⟨root, beside, found, inside, hroot, -, hfound, hinside, rfl⟩ := lint_eq_ok.1 h
  rw [LintReport.isClean, List.isEmpty_iff, List.append_eq_nil_iff, List.append_eq_nil_iff] at hclean
  obtain ⟨⟨-, hfoundClean⟩, rfl⟩ := hclean
  refine ⟨CleanRun.directories hw hfound hfoundClean, fun c hc hvalid => ?_⟩
  refine CleanRun.soundProject hw (Logged.collect_eq_nil.1 hinside c.root ?_)
  exact List.mem_map.2 ⟨c, List.mem_filter.2 ⟨hc, hvalid⟩, rfl⟩

namespace CleanRun

/-- A tree with one project whose wrapper exports the class of its name. -/
def keptTree : FileSystem :=
  SampleTree.withProject
    [("wrappers", .dir [("Counter.ts", .file (SampleTree.octetsOf "export class Counter \x7b\x7d"))])]

/-- A tree with one project whose contracts are a link to a directory beside them, which no target directory leads through. -/
def linkedTree : FileSystem :=
  SampleTree.withProject [("contracts", .link "src"), ("src", .dir [("BadName.fc", .file [])])]

/-- What a run on a tree with one project finds there. -/
theorem exists_report (fs : FileSystem) (h : (lint fs {} characteristicDirs (Path.ofString "/w")).outcome.toOption.map
    (fun r => (r.isClean, r.candidates)) = some (true, [⟨.absolute ["w"], true, true, .valid⟩])) :
    ∃ report, (lint fs {} characteristicDirs (Path.ofString "/w")).outcome = .ok report ∧
      report.isClean = true ∧ report.candidates = [⟨.absolute ["w"], true, true, .valid⟩] := by
  cases hrun : (lint fs {} characteristicDirs (Path.ofString "/w")).outcome with
  | error e =>
    rw [hrun] at h
    nomatch h
  | ok report =>
    rw [hrun] at h
    simp only [Except.toOption, Option.map_some, Option.some.injEq, Prod.mk.injEq] at h
    exact ⟨report, rfl, h.1, h.2⟩

end CleanRun

set_option maxRecDepth 4000 in
/-- The run on a tree with one project that is as the rules ask succeeds, finds the project and a source of it, and is sound. -/
theorem lint_clean_sound_keptTree :
    ∃ report, (lint CleanRun.keptTree {} characteristicDirs (Path.ofString "/w")).outcome = .ok report ∧
      report.isClean = true ∧ report.candidates = [⟨.absolute ["w"], true, true, .valid⟩] ∧
      IsSource CleanRun.keptTree (.absolute ["w"]) "wrappers" ["Counter.ts"]
        (SampleTree.octetsOf "export class Counter \x7b\x7d") ∧ Sound CleanRun.keptTree report := by
  have hw : CleanRun.keptTree.WellFormed := by decide +kernel
  obtain ⟨report, hrun, hclean, hcandidates⟩ := CleanRun.exists_report CleanRun.keptTree (by decide +kernel)
  have hproject : CleanRun.keptTree.stat? (.absolute ["w"]) = .ok (SampleTree.project
      [("wrappers", .dir [("Counter.ts", .file (SampleTree.octetsOf "export class Counter \x7b\x7d"))])]) :=
    FileSystem.stat?_eq_ok.2 ⟨by decide +kernel, ["w"], hw.route_absolute (SampleTree.at?_project _) rfl⟩
  have hsource : IsSource CleanRun.keptTree (.absolute ["w"]) "wrappers" ["Counter.ts"] _ :=
    CleanRun.isSource_of_at? hw hproject (by decide) (by decide) (by decide) rfl
  exact ⟨report, hrun, hclean, hcandidates, hsource, lint_clean_sound hw hrun hclean⟩

set_option maxRecDepth 4000 in
/-- A contract that is reached through a link from a target directory to elsewhere in the project is not looked at: the run reports
nothing, and the name of the contract is not as the rules ask. -/
theorem lint_clean_linkedTree :
    CleanRun.linkedTree.WellFormed ∧
      (∃ report, (lint CleanRun.linkedTree {} characteristicDirs (Path.ofString "/w")).outcome = .ok report ∧
        report.isClean = true ∧ report.candidates = [⟨.absolute ["w"], true, true, .valid⟩]) ∧
      (∃ n, CleanRun.linkedTree.stat? (.absolute ["w", "contracts"]) = .ok n ∧ n.at? ["BadName.fc"] = some (.file [])) ∧
      ¬WellNamed "contracts" (.absolute ["w", "contracts", "BadName.fc"]) [] := by
  have hlinked : CleanRun.linkedTree.stat? (.absolute ["w", "contracts"]) = .ok (.dir [("BadName.fc", .file [])]) := rfl
  refine ⟨by decide +kernel, CleanRun.exists_report CleanRun.linkedTree (by decide +kernel), ⟨_, hlinked, rfl⟩, fun h => ?_⟩
  have hname := h.contract (by decide +kernel)
  revert hname
  decide +kernel

end WorkspaceLint
