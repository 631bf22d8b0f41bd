import WorkspaceLint.Proofs.Checks
import WorkspaceLint.Proofs.Files.Contents
import WorkspaceLint.Proofs.LintRun
import WorkspaceLint.Proofs.SampleTree
import WorkspaceLint.Proofs.SourceScan

/-!
# What one file does to the diagnostics of its project

Two file systems that differ in the octets of one file give a project the same diagnostics elsewhere: whatever is reported at
another place than that file is reported in both, in the same order (`checkProject_isolated`). This holds as long as neither
content makes a check fail (`Harmless`): a build configuration that is not refused for an integer of too many digits, and declared
sources that can be looked up. Content that does make a check fail takes all other diagnostics of the project with it.
-/

namespace WorkspaceLint

open Files (FileSystem Node Found IsStep IsEntryName SameOutline SameShape DifferOnlyAt)

namespace Files

/-! ## What does not look into files -/

theorem SameOutline.scan {fs fs' : FileSystem} (h : SameOutline fs fs') (rules : Rules) (project : Path)
    (targetDirs : List String) : SourceFile.scan fs rules project targetDirs = SourceFile.scan fs' rules project targetDirs := by
  have hcandidate : SourceFile.ofCandidate fs = SourceFile.ofCandidate fs' := by
    funext rules root targets candidate
    rw [SourceFile.ofCandidate, SourceFile.ofCandidate, h.sameShape.isFile?, h.sameShape.resolve]
  have htarget : SourceFile.ofTarget fs = SourceFile.ofTarget fs' := by
    funext rules root targets target
    rw [SourceFile.ofTarget, SourceFile.ofTarget, h.sameShape.isDir?, hcandidate, h.descendants]
  rw [SourceFile.scan, SourceFile.scan, h.sameShape.resolve, htarget]

theorem SameOutline.duplicateNames {fs fs' : FileSystem} (h : SameOutline fs fs') (rules : Rules) (project : Path) :
    Check.duplicateNames fs rules project = Check.duplicateNames fs' rules project := by
  rw [Check.duplicateNames, Check.duplicateNames, h.sameShape.isDir?, h.projectFiles]

end Files

/-! ## Places -/

/-- A diagnostic, with its location seen from a directory, is about another place than the file at a position. -/
def elsewhere (fs : FileSystem) (base : Path) (position : List String) (d : Diagnostic) : Bool :=
  !fs.isAt (base.join (Path.ofString d.location)) position

/-- Seen from the scan root, the same diagnostics are about other places. -/
theorem filter_map_seenFrom {fs : FileSystem} {scanRoot project : Path} {position : List String}
    (ha : project.anchor ≠ .relative) (hp : ∀ x ∈ project.parts, IsPart x) (ds : List Diagnostic) :
    (ds.map (seenFrom scanRoot project)).filter (elsewhere fs scanRoot position) =
      (ds.filter (elsewhere fs project position)).map (seenFrom scanRoot project) := by
  rw [List.filter_map]
  congr 1
  refine List.filter_congr fun d _ => ?_
  rw [Function.comp_apply, elsewhere, elsewhere, join_seenFrom ha hp]

/-- What the file at a position holds makes no check of a project fail: as the build configuration it is not refused for an integer
of too many digits, and the sources that it names, as the build configuration or as a compile file, can be looked up. -/
structure Harmless (fs : FileSystem) (rules : Rules) (project : Path) (position : List String) : Prop where
  /-- The build configuration is loaded or refused, and what it names can be looked up. -/
  config : fs.exists? (project.join (Path.ofString rules.buildConfigName)) = .ok true →
    fs.leadsAt (project.join (Path.ofString rules.buildConfigName)) position = true →
    ∃ loaded, loadJson fs (project.join (Path.ofString rules.buildConfigName)) = .ok loaded ∧
      ∀ v, loaded = .ok v → ∀ e ∈ Check.buildEntries v, ∃ there,
        fs.exists? (project.join (Path.ofString e.path)) = .ok there
  /-- What a compile file names can be looked up. -/
  compileFiles : ∀ path, fs.ReachesFile rules.enters project path → endsIn path.name rules.compileSuffix = true →
    fs.leadsAt path position = true → ∀ source, fs.text? path = .ok source →
    ∀ t ∈ (Source.declaredTargets source).1, ∃ there,
      fs.exists? (project.join (Path.ofString (String.ofList t))) = .ok there

namespace Isolation

/-! ## One check after another -/

section Checks

variable {fs fs' : FileSystem} {rules : Rules} {q position : List String} {es : List (String × Node)}

/-- What is reported of a wrapper at another place is the same in both. -/
theorem wrapperName (h : DifferOnlyAt position fs fs') {f : SourceFile}
    (hf : fs.leadsAt f.path position = true →
      fs.isAt ((Path.absolute q).join (Path.ofString f.location.text)) position = true) :
    Logged.AgreeOn (elsewhere fs (.absolute q) position) (Check.wrapperName fs rules f) (Check.wrapperName fs' rules f) := by
  cases hl : fs.leadsAt f.path position with
  | false =>
    apply Logged.AgreeOn.of_eq
    rw [Check.wrapperName, Check.wrapperName, h.text? hl]
  | true =>
    obtain ⟨ds, hds, hloc⟩ := Check.exists_wrapperName fs rules f
    obtain ⟨ds', hds', hloc'⟩ := Check.exists_wrapperName fs' rules f
    refine Logged.AgreeOn.of_none hds hds' (fun d hd => ?_) fun d hd => ?_
    · rw [elsewhere, hloc d hd, hf hl]
      rfl
    · rw [elsewhere, hloc' d hd, hf hl]
      rfl

/-- The location of what a scan finds in a project leads back to it. -/
theorem join_location (hw : fs.WellFormed) (hq : fs.at? q = some (.dir es)) {namingDirs : List String}
    {files : List SourceFile} (hscan : (SourceFile.scan fs rules (.absolute q) namingDirs).outcome = .ok files)
    {f : SourceFile} (hf : f ∈ files) :
    (Path.absolute q).join (Path.ofString f.location.text) = f.path ∧
      (fs.leadsAt f.path position = true → fs.isAt f.path position = true) := by
  obtain ⟨root, place, content, hroot, hp, hat, hl⟩ := SourceFile.of_mem_scan hscan hf
  have hplace := (Node.WellFormed.below hw hat).2
  have hrouteq : fs.route (.absolute q) = .ok ⟨q, .dir es⟩ := FileSystem.route_of_at? hq (hw.isStep hq) rfl
  obtain rfl : root = .absolute q := by
    rw [FileSystem.resolve_eq_ok hroot, FileSystem.canonicalPosition_of_route hrouteq]
  constructor
  · have hseen : relativeLocation f.path (.absolute q) = f.location.text := by rw [relativeLocation, hl]
    rw [← hseen]
    refine join_relativeLocation (by intro ha; rw [hp] at ha; cases ha) fun x hx => (hplace x ?_).isPart
    rw [hp] at hx
    exact hx
  · intro hlead
    obtain ⟨m, hm⟩ := FileSystem.leadsAt_eq_true.1 hlead
    have hroute := (FileSystem.find?_eq_ok.1 hm).2
    have hself : fs.route f.path = .ok ⟨place, .file content⟩ := by
      rw [hp]
      exact FileSystem.route_of_at? hat (fun x hx => (hplace x hx).isStep) rfl
    rw [hroute] at hself
    cases hself
    rw [FileSystem.isAt, hp]
    simp

/-- What is reported of the build configuration at another place is the same in both. -/
theorem buildConfig (hw : fs.WellFormed) (h : DifferOnlyAt position fs fs') (hname : IsEntryName rules.buildConfigName)
    (hq : fs.at? q = some (.dir es)) (hs : Harmless fs rules (.absolute q) position)
    (hs' : Harmless fs' rules (.absolute q) position) :
    Logged.AgreeOn (elsewhere fs (.absolute q) position) (Check.buildConfig fs rules (.absolute q))
      (Check.buildConfig fs' rules (.absolute q)) := by
  have hpath : (Path.absolute q).join (Path.ofString rules.buildConfigName) = .absolute (q ++ [rules.buildConfigName]) := by
    rw [Path.join_ofString_part hname.isPart]
    rfl
  cases hl : fs.leadsAt ((Path.absolute q).join (Path.ofString rules.buildConfigName)) position with
  | false =>
    apply Logged.AgreeOn.of_eq
    have hload : loadJson fs ((Path.absolute q).join (Path.ofString rules.buildConfigName)) =
        loadJson fs' ((Path.absolute q).join (Path.ofString rules.buildConfigName)) := by
      rw [loadJson, loadJson, h.text? hl]
    rw [Check.buildConfig, Check.buildConfig]
    simp only [h.sameShape.exists?, hload, Check.missingDiagnostics_congr h.sameShape]
  | true =>
    have hl' : fs'.leadsAt ((Path.absolute q).join (Path.ofString rules.buildConfigName)) position = true := by
      rw [← h.sameShape.leadsAt]
      exact hl
    cases he : fs.exists? ((Path.absolute q).join (Path.ofString rules.buildConfigName)) with
    | error e =>
      obtain ⟨m, hm⟩ := FileSystem.leadsAt_eq_true.1 hl
      rw [FileSystem.exists?, FileSystem.leadsTo, FileSystem.stat?, hm] at he
      split at he <;> cases he
    | ok there =>
      have he' : fs'.exists? ((Path.absolute q).join (Path.ofString rules.buildConfigName)) = .ok there := by
        rw [← h.sameShape.exists?]
        exact he
      obtain ⟨ds, hds⟩ := Check.exists_buildConfig_iff.2 ⟨there, he, fun ht => hs.config (ht ▸ he) hl⟩
      obtain ⟨ds', hds'⟩ := Check.exists_buildConfig_iff.2 ⟨there, he', fun ht => hs'.config (ht ▸ he') hl'⟩
      have hplace : fs.isAt ((Path.absolute q).join (Path.ofString rules.buildConfigName)) position = true := by
        rw [hpath] at hl ⊢
        exact FileSystem.isAt_of_entry hq (hw.isStep hq) hname.isStep hl
      refine Logged.AgreeOn.of_none hds hds' (fun d hd => ?_) fun d hd => ?_
      · rw [elsewhere, Check.location_of_mem_buildConfig hds d hd, hplace]
        rfl
      · rw [elsewhere, Check.location_of_mem_buildConfig hds' d hd, hplace]
        rfl

/-- A compile file that leads to a file is that file or a link to it, and its location leads back to it. -/
theorem isAt_compileFile (hw : fs.WellFormed) (hq : fs.at? q = some (.dir es)) {path : Path}
    (hr : fs.ReachesFile rules.enters (.absolute q) path) (hl : fs.leadsAt path position = true) :
    fs.isAt ((Path.absolute q).join (Path.ofString (relativeLocation path (.absolute q)))) position = true := by
  obtain ⟨place, entries, name, rfl, hplace, hname⟩ := hr.exists_at? hw hq
  have hnames : ∀ x ∈ place ++ [name], IsEntryName x :=
    List.forall_mem_append.2 ⟨(Node.WellFormed.below hw hplace).2, List.forall_mem_singleton.2 hname⟩
  rw [Files.join_location_absolute hnames]
  exact FileSystem.isAt_of_entry hplace (hw.isStep hplace) hname.isStep hl

/-- What is reported of the compile files at another place is the same in both. -/
theorem compileFiles (hw : fs.WellFormed) (h : DifferOnlyAt position fs fs') (hq : fs.at? q = some (.dir es))
    (hs : Harmless fs rules (.absolute q) position) (hs' : Harmless fs' rules (.absolute q) position) :
    Logged.AgreeOn (elsewhere fs (.absolute q) position) (Check.compileFiles fs rules (.absolute q))
      (Check.compileFiles fs' rules (.absolute q)) := by
  have hsame : Check.compileFilePaths fs rules (.absolute q) = Check.compileFilePaths fs' rules (.absolute q) := by
    rw [Check.compileFilePaths, Check.compileFilePaths, h.outline.projectFiles]
  rw [Check.compileFiles, Check.compileFiles, ← hsame]
  refine Logged.RelatedBy.bind_of_eq rfl fun paths hpaths => Logged.AgreeOn.collect fun path hpath => ?_
  cases hl : fs.leadsAt path position with
  | false =>
    apply Logged.AgreeOn.of_eq
    rw [Check.compileFile, Check.compileFile, h.text? hl]
    simp only [Check.missingDiagnostics_congr h.sameShape]
  | true =>
    have hl' : fs'.leadsAt path position = true := by
      rw [← h.sameShape.leadsAt]
      exact hl
    obtain ⟨hr, hend⟩ := (Check.mem_compileFilePaths_iff hw hpaths).1 hpath
    obtain ⟨hr', -⟩ := (Check.mem_compileFilePaths_iff (h.outline.wellFormed hw) (hsame.symm.trans hpaths)).1 hpath
    obtain ⟨ds, hds⟩ := Check.exists_compileFile_iff.2 (hs.compileFiles path hr hend hl)
    obtain ⟨ds', hds'⟩ := Check.exists_compileFile_iff.2 (hs'.compileFiles path hr' hend hl')
    have hplace := isAt_compileFile hw hq hr hl
    refine Logged.AgreeOn.of_none hds hds' (fun d hd => ?_) fun d hd => ?_
    · rw [elsewhere, Check.location_of_mem_compileFile hds d hd, hplace]
      rfl
    · rw [elsewhere, Check.location_of_mem_compileFile hds' d hd, hplace]
      rfl

/-! ## All checks of a project -/

/-- What the checks of a project report at another place is the same in both. -/
theorem projectDiagnostics (hw : fs.WellFormed) (h : DifferOnlyAt position fs fs')
    (hname : IsEntryName rules.buildConfigName) (hq : fs.at? q = some (.dir es))
    (hs : Harmless fs rules (.absolute q) position) (hs' : Harmless fs' rules (.absolute q) position)
    (namingDirs : List String) :
    Logged.AgreeOn (elsewhere fs (.absolute q) position) (WorkspaceLint.projectDiagnostics fs rules namingDirs (.absolute q))
      (WorkspaceLint.projectDiagnostics fs' rules namingDirs (.absolute q)) := by
  rw [WorkspaceLint.projectDiagnostics, WorkspaceLint.projectDiagnostics, ← h.outline.scan, ← h.outline.duplicateNames]
  refine Logged.RelatedBy.bind_of_eq rfl fun files hscan => Logged.RelatedBy.bind_of_eq rfl fun duplicates _ => ?_
  have hwrappers : Logged.AgreeOn (elsewhere fs (.absolute q) position) (Check.wrapperNames fs rules files)
      (Check.wrapperNames fs' rules files) := by
    refine Logged.AgreeOn.collect fun f hf => wrapperName h fun hl => ?_
    obtain ⟨hback, hplace⟩ := join_location hw hq hscan (List.mem_filter.1 hf).1
    rw [hback]
    exact hplace hl
  refine Logged.RelatedBy.bind hwrappers fun ws ws' _ _ hws => ?_
  have hreferences : Logged.AgreeOn (elsewhere fs (.absolute q) position) (Check.references fs rules (.absolute q))
      (Check.references fs' rules (.absolute q)) := by
    refine Logged.RelatedBy.bind (buildConfig hw h hname hq hs hs') fun as as' _ _ has => ?_
    refine Logged.RelatedBy.bind (compileFiles hw h hq hs hs') fun bs bs' _ _ hbs =>
      Or.inr ⟨as ++ bs, as' ++ bs', rfl, rfl, ?_⟩
    rw [Logged.SameOn] at has hbs ⊢
    rw [List.filter_append, List.filter_append, has, hbs]
  refine Logged.RelatedBy.bind hreferences fun rs rs' _ _ hrs => Or.inr ⟨_, _, rfl, rfl, ?_⟩
  rw [Logged.SameOn] at hws hrs ⊢
  simp only [List.filter_append, hws, hrs]

end Checks

/-- Where the checks of a project succeed no file makes one fail. -/
theorem harmless_of_ok {fs : FileSystem} (hw : fs.WellFormed) {rules : Rules} {namingDirs : List String} {project : Path}
    {ds : List Diagnostic} (h : (WorkspaceLint.projectDiagnostics fs rules namingDirs project).outcome = .ok ds)
    (position : List String) : Harmless fs rules project position := by
  obtain ⟨-, -, -, references, -, -, -, hr, -⟩ := projectDiagnostics_eq_ok.1 h
  obtain ⟨ofConfig, hconfig, hr⟩ := Logged.bind_eq_ok.1 hr
  obtain ⟨ofCompile, hcompile, -⟩ := Logged.bind_eq_ok.1 hr
  refine ⟨fun hthere _ => ?_, fun path hreach hend _ => ?_⟩
  · obtain ⟨there, ht, hload⟩ := Check.exists_buildConfig_iff.1 ⟨ofConfig, hconfig⟩
    rw [hthere] at ht
    cases ht
    exact hload rfl
  · simp only [Check.compileFiles, Logged.bind_eq_ok, Logged.outcome_ofExcept] at hcompile
    obtain ⟨paths, hpaths, hcompile⟩ := hcompile
    have hmem := (Check.mem_compileFilePaths_iff hw hpaths).2 ⟨hreach, hend⟩
    exact Check.exists_compileFile_iff.1 (Logged.exists_collect_iff.1 ⟨ofCompile, hcompile⟩ path hmem)

/-- Where a file makes a check fail one diagnostic of the whole project is left. -/
theorem checkProject_of_not_harmless {fs : FileSystem} (hw : fs.WellFormed) {rules : Rules} {project : Path}
    {position : List String} (hs : ¬Harmless fs rules project position) (namingDirs : List String) (scanRoot : Path) :
    ∃ e, (checkProject fs rules namingDirs scanRoot project).outcome =
      .ok [failureDiagnostic (relativeLocation project scanRoot) e] := by
  rw [outcome_checkProject]
  cases hds : (WorkspaceLint.projectDiagnostics fs rules namingDirs project).outcome with
  | ok ds => exact absurd (harmless_of_ok hw hds position) hs
  | error e => exact ⟨e, rfl⟩

end Isolation

/-- The diagnostics of a project that are about other places than one file are the same whatever that file holds, as long as what
it holds makes no check fail; content that makes a check fail leaves one diagnostic of the whole project. -/
theorem checkProject_isolated {fs fs' : FileSystem} (hw : fs.WellFormed) {position : List String}
    (h : DifferOnlyAt position fs fs') {rules : Rules} (hname : IsEntryName rules.buildConfigName) {project : List String}
    (hp : fs.kind? project = some .dir) (namingDirs : List String) (scanRoot : Path) :
    (Harmless fs rules (.absolute project) position → Harmless fs' rules (.absolute project) position →
        ∃ ds ds', (checkProject fs rules namingDirs scanRoot (.absolute project)).outcome = .ok ds ∧
          (checkProject fs' rules namingDirs scanRoot (.absolute project)).outcome = .ok ds' ∧
          ds.filter (elsewhere fs scanRoot position) = ds'.filter (elsewhere fs scanRoot position)) ∧
      (¬Harmless fs rules (.absolute project) position →
        ∃ e, (checkProject fs rules namingDirs scanRoot (.absolute project)).outcome =
          .ok [failureDiagnostic (relativeLocation (.absolute project) scanRoot) e]) := by
  obtain ⟨n, hn, hk⟩ := Option.map_eq_some_iff.1 hp
  obtain ⟨es, rfl⟩ := Node.eq_dir_of_kind hk
  have hparts : ∀ x ∈ (Path.absolute project).parts, IsPart x := fun x hx => ((Node.WellFormed.below hw hn).2 x hx).isPart
  constructor
  · intro hs hs'
    rw [outcome_checkProject, outcome_checkProject]
    rcases Isolation.projectDiagnostics hw h hname hn hs hs' namingDirs with ⟨e, he, he'⟩ | ⟨ds, ds', hds, hds', hsame⟩
    · rw [he, he']
      exact ⟨_, _, rfl, rfl, rfl⟩
    · rw [hds, hds']
      refine ⟨_, _, rfl, rfl, ?_⟩
      rw [filter_map_seenFrom (by exact nofun) hparts, filter_map_seenFrom (by exact nofun) hparts, hsame]
  · exact fun hs => Isolation.checkProject_of_not_harmless hw hs namingDirs scanRoot

namespace Isolation

/-- A project with a script that is not named as it should be, and a compile file. -/
def compileTree (content : List UInt8) : FileSystem :=
  SampleTree.withProject
    [("wrappers", .dir [("Counter.compile.ts", .file content)]), ("scripts", .dir [("Deploy.ts", .file [])])]

/-- The position of the compile file. -/
def compilePosition : List String := ["w", "wrappers", "Counter.compile.ts"]

theorem compileTree_at? (content : List UInt8) : (compileTree content).at? compilePosition = some (.file content) := rfl

theorem compileTree_at?_project (content : List UInt8) : ∃ es, (compileTree content).at? ["w"] = some (.dir es) := ⟨_, rfl⟩

theorem compileTree_putAt (a b : List UInt8) : (compileTree a).putAt compilePosition (.file b) = compileTree b := rfl

/-- The file system is well formed whatever the compile file holds. -/
theorem compileTree_wellFormed (content : List UInt8) : (compileTree content).WellFormed := by
  have hempty : (compileTree []).WellFormed := by decide
  have h := Files.differOnlyAt_putAt (compileTree_at? []) content
  rw [compileTree_putAt] at h
  exact h.outline.wellFormed hempty

theorem compileTree_reaches (content : List UInt8) :
    (compileTree content).ReachesFile ({} : Rules).enters (.absolute ["w"]) (.absolute compilePosition) := by
  refine ⟨.absolute ["w", "wrappers"], [("Counter.compile.ts", .file content)], "Counter.compile.ts", .file content,
    ⟨⟨_, ["wrappers"], rfl, rfl, by decide, rfl⟩, by decide⟩, rfl, rfl, rfl⟩

/-- A name of 256 letters. -/
def longName : String := String.ofList (List.replicate 256 'a')

theorem toList_longName : longName.toList = List.replicate 256 'a' := String.toList_ofList

theorem not_mem_longName {c : Char} (hc : c ≠ 'a') : c ∉ longName.toList := by
  rw [toList_longName]
  exact fun h => hc (List.eq_of_mem_replicate h)

/-- The name is read as it is: no slash stands in it, and it is no dot. -/
theorem longName_isPart : IsPart longName ∧ longName ≠ ".." := by
  have hne : ∀ s : String, s.toList.length < 256 → longName ≠ s := by
    rintro s hs rfl
    rw [toList_longName, List.length_replicate] at hs
    omega
  exact ⟨⟨hne "" (by decide), hne "." (by decide), not_mem_longName (by decide)⟩, hne ".." (by decide)⟩

/-- Nothing can be looked up under that name. -/
theorem leadsTo_longName {fs : FileSystem} (hdir : ∃ es, fs.at? ["w"] = some (.dir es)) (kind : Node → Bool) :
    fs.leadsTo kind (.absolute ["w", longName]) = .error (.lookup ⟨.nameTooLong, .absolute ["w", longName]⟩) := by
  obtain ⟨es, hes⟩ := hdir
  refine FileSystem.leadsTo_tooLong hes (by simp [IsStep]; decide) ⟨longName_isPart.1.2.1, longName_isPart.2⟩ (by decide +kernel)
    (fun x hx => ?_) kind
  rcases List.mem_cons.1 hx with rfl | hx
  · decide
  · rw [List.mem_singleton.1 hx]
    exact not_mem_longName (by decide)

/-- A compile file that declares a target under that name. -/
def longTarget : List UInt8 := SampleTree.octetsOf "target: '" ++ List.replicate 256 97 ++ [39]

/-- A target of a name that is too long cannot be looked up. -/
theorem not_harmless_longTarget : ¬Harmless (compileTree longTarget) {} (.absolute ["w"]) compilePosition := by
  intro h
  have hlead : (compileTree longTarget).leadsAt (.absolute compilePosition) compilePosition = true := by decide +kernel
  have htext : (compileTree longTarget).text? (.absolute compilePosition) =
      .ok ("target: '".toList ++ List.replicate 256 'a' ++ ['\'']) := by decide +kernel
  have htarget : List.replicate 256 'a' ∈
      (Source.declaredTargets ("target: '".toList ++ List.replicate 256 'a' ++ ['\''])).1 := by decide +kernel
  obtain ⟨there, ht⟩ := h.compileFiles _ (compileTree_reaches longTarget) (by decide) hlead _ htext _ htarget
  have hjoin : (Path.absolute ["w"]).join (.ofParts [longName]) = .absolute ["w", longName] := rfl
  have hlong : (compileTree longTarget).exists? (.absolute ["w", longName]) = .error _ :=
    leadsTo_longName (compileTree_at?_project longTarget) _
  rw [show String.ofList (List.replicate 256 'a') = longName from rfl, Path.ofString_part longName_isPart.1, hjoin, hlong] at ht
  nomatch ht

/-- Octets that are no text. -/
def undecodable : List UInt8 := [0xff]

/-- A compile file that declares a target which is not there. -/
def goneTarget : List UInt8 := SampleTree.octetsOf "target: 'a.tact'"

end Isolation

set_option maxRecDepth 4000 in
/-- A compile file that cannot be decoded and one that names a missing target leave the other diagnostic of the project alone. -/
theorem checkProject_isolated_undecodable :
    (∃ ds ds',
      (checkProject (Isolation.compileTree Isolation.undecodable) {} ["scripts"] (.absolute []) (.absolute ["w"])).outcome =
        .ok ds ∧
      (checkProject (Isolation.compileTree Isolation.goneTarget) {} ["scripts"] (.absolute []) (.absolute ["w"])).outcome =
        .ok ds' ∧
      ds.filter (elsewhere (Isolation.compileTree Isolation.undecodable) (.absolute []) Isolation.compilePosition) =
        ds'.filter (elsewhere (Isolation.compileTree Isolation.undecodable) (.absolute []) Isolation.compilePosition)) ∧
    ∃ e, (checkProject (Isolation.compileTree Isolation.longTarget) {} ["scripts"] (.absolute []) (.absolute ["w"])).outcome =
      .ok [failureDiagnostic (relativeLocation (.absolute ["w"]) (.absolute [])) e] := by
  have hname : IsEntryName ({} : Rules).buildConfigName := by decide
  have hput : ∀ a b, DifferOnlyAt Isolation.compilePosition (Isolation.compileTree a) (Isolation.compileTree b) :=
    fun a b => Files.differOnlyAt_putAt (Isolation.compileTree_at? a) b
  have hharmless : ∀ content, (projectDiagnostics (Isolation.compileTree content) {} ["scripts"]
      (.absolute ["w"])).outcome.toOption.isSome = true →
      Harmless (Isolation.compileTree content) {} (.absolute ["w"]) Isolation.compilePosition := by
    intro content hok
    cases h : (projectDiagnostics (Isolation.compileTree content) {} ["scripts"] (.absolute ["w"])).outcome with
    | ok ds => exact Isolation.harmless_of_ok (Isolation.compileTree_wellFormed content) h _
    | error e =>
      rw [h] at hok
      nomatch hok
  constructor
  · exact (checkProject_isolated (Isolation.compileTree_wellFormed _) (hput _ _) hname (by decide +kernel) _ _).1
      (hharmless _ (by decide +kernel)) (hharmless _ (by decide +kernel))
  · exact (checkProject_isolated (Isolation.compileTree_wellFormed _) (hput _ Isolation.goneTarget) hname
      (by decide +kernel) _ _).2 Isolation.not_harmless_longTarget

set_option maxRecDepth 4000 in
/-- A compile file takes the diagnostic of a script with it when it names a target under a name that is too long to look up: the
two trees differ in nothing else, the project is whole in both, and its checks give an answer in both. -/
theorem checkProject_not_isolated :
    ∃ ds ds' : List Diagnostic,
      DifferOnlyAt Isolation.compilePosition (Isolation.compileTree Isolation.undecodable)
        (Isolation.compileTree Isolation.longTarget) ∧
      (∃ c, (Discovery.classify (Isolation.compileTree Isolation.undecodable) {} (.absolute []) (.absolute ["w"])).outcome =
        .ok c ∧ c.1.classification = .valid) ∧
      (checkProject (Isolation.compileTree Isolation.undecodable) {} ["scripts"] (.absolute []) (.absolute ["w"])).outcome =
        .ok ds ∧
      (checkProject (Isolation.compileTree Isolation.longTarget) {} ["scripts"] (.absolute []) (.absolute ["w"])).outcome =
        .ok ds' ∧
      (ds.filter (·.location ≠ "w/wrappers/Counter.compile.ts")).map (·.location) = ["w/scripts/Deploy.ts"] ∧
      (ds'.filter (·.location ≠ "w/wrappers/Counter.compile.ts")).map (·.location) = ["w"] := by
  have hclass : ((Discovery.classify (Isolation.compileTree Isolation.undecodable) {} (.absolute [])
      (.absolute ["w"])).outcome.toOption.map fun c => c.1.classification) = some .valid := by decide +kernel
  have hds : ((checkProject (Isolation.compileTree Isolation.undecodable) {} ["scripts"] (.absolute [])
      (.absolute ["w"])).outcome.toOption.map fun ds =>
        (ds.filter (·.location ≠ "w/wrappers/Counter.compile.ts")).map (·.location)) = some ["w/scripts/Deploy.ts"] := by
    decide +kernel
  obtain ⟨e, he⟩ := Isolation.checkProject_of_not_harmless (Isolation.compileTree_wellFormed Isolation.longTarget)
    Isolation.not_harmless_longTarget ["scripts"] (.absolute [])
  cases hc : (Discovery.classify (Isolation.compileTree Isolation.undecodable) {} (.absolute []) (.absolute ["w"])).outcome with
  | error e =>
    rw [hc] at hclass
    nomatch hclass
  | ok c =>
    cases hd : (checkProject (Isolation.compileTree Isolation.undecodable) {} ["scripts"] (.absolute [])
        (.absolute ["w"])).outcome with
    | error e =>
      rw [hd] at hds
      nomatch hds
    | ok ds =>
      rw [hc] at hclass
      rw [hd] at hds
      refine ⟨ds, _, Files.differOnlyAt_putAt (Isolation.compileTree_at? _) _, ⟨c, rfl, Option.some.inj hclass⟩, rfl, he,
        Option.some.inj hds, ?_⟩
      have hroot : relativeLocation (.absolute ["w"]) (.absolute []) = "w" := by decide
      rw [hroot]
      rfl

end WorkspaceLint
