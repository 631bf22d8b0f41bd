import WorkspaceLint.Proofs.CheckedFiles
import WorkspaceLint.Proofs.Files.Entries
import WorkspaceLint.Proofs.Manifests
import WorkspaceLint.Proofs.SampleTree

/-!
# Where diagnostics are located

Every diagnostic of a run, but the one about what lies beside the scan root, is located at an entry of the tree at or below the
scan root, and a diagnostic about a name or a file that is referred to is located below a project (`lint_locations`). The entry
is found by its path as long as the path is not too long: a walk goes on to entries whose paths are.
-/

namespace WorkspaceLint

open Files (FileSystem Node IsEntryName pathBytesLimit)

variable {fs : FileSystem} {rules : Rules} {namingDirs : List String} {root path : Path}

/-! ## Real locations -/

/-- A location of something that is there, seen from a scan root. -/
structure IsReal (fs : FileSystem) (scanRoot : Path) (location : String) : Prop where
  /-- It is written as names of entries, or as a single dot when there are none. -/
  written : ∃ names : List String, (∀ x ∈ names, IsEntryName x) ∧ location = (Path.ofParts names).text
  /-- The tree has an entry there. -/
  entry : fs.HasEntry (scanRoot.join (Path.ofString location))

/-- The location of an entry below the scan root is real. -/
theorem isReal_below {names : List String} (hnames : ∀ x ∈ names, IsEntryName x) (h : fs.HasEntry (root.below names)) :
    IsReal fs root (relativeLocation (root.below names) root) := by
  have hlocation := relativeLocation_below root names
  refine ⟨⟨names, hnames, hlocation⟩, ?_⟩
  have hread : Path.ofString (Path.ofParts names).text = .ofParts names :=
    Path.ofString_text fun x hx => (hnames x hx).isPart
  rw [hlocation, hread]
  exact h

/-! ## What is reported of a project -/

/-- What is checked in a project is an entry below it. -/
theorem IsChecked.exists_entry (hw : fs.WellFormed) (hcontracts : IsEntryName rules.contractsDir)
    (hname : IsEntryName rules.buildConfigName) {place : List String} {es : List (String × Node)}
    (hat : fs.at? place = some (.dir es)) {keep : String → Bool} (hreach : fs.Reaches keep root (.absolute place) es)
    (h : IsChecked fs rules namingDirs (.absolute place) path) :
    ∃ names, names ≠ [] ∧ path = (Path.absolute place).below names ∧ (∀ x ∈ names, IsEntryName x) ∧ fs.HasEntry path := by
  have hproject : fs.resolve (.absolute place) = .ok (.absolute place) := hw.resolve_absolute hat rfl
  cases h with
  | buildConfig hthere =>
    exact ⟨[rules.buildConfigName], List.cons_ne_nil _ _, rfl, by simpa using hname, hreach.hasEntry hw hname.isStep hthere⟩
  | walked hwalked =>
    cases hwalked with
    | @sourceFile files f hscan hmem =>
      obtain ⟨-, position, content, -, hp, hfile, -⟩ := SourceFile.of_mem_scan hscan hmem
      have hbelow : Path.absolute position = (Path.absolute place).below f.location.parts :=
        hp.symm.trans (path_of_mem_scan hproject hscan hmem)
      have hposition : position = place ++ f.location.parts := congrArg Path.parts hbelow
      refine ⟨f.location.parts, fun hnil => ?_, rfl, (location_of_mem_scan hw hscan hmem).2, ?_⟩
      · rw [hposition, hnil, List.append_nil, hat] at hfile
        nomatch hfile
      · rw [← hbelow]
        exact FileSystem.hasEntry_of_at? hw hfile
    | contract hcontract _ =>
      have hentry := hcontract.hasEntry hw
      obtain ⟨names, rfl, hnames⟩ := hcontract.exists_below hw
      rw [Path.join_ofString_part hcontracts.isPart, Path.child_below] at hentry ⊢
      exact ⟨rules.contractsDir :: names, List.cons_ne_nil _ _, rfl, List.forall_mem_cons.2 ⟨hcontracts, hnames⟩, hentry⟩
    | compileFile hcompile _ =>
      obtain ⟨names, rfl, hnames⟩ := hcompile.exists_below hw
      exact ⟨names, hcompile.ne_nil, rfl, hnames, hcompile.hasEntry hw⟩

/-- What is reported of a candidate directory is located there or at its manifest. -/
theorem Discovery.isReal_of_mem_classify (hw : fs.WellFormed) (hmanifest : IsEntryName rules.manifestName)
    (hroot : fs.resolve root = .ok root) {d : Path} {es : List (String × Node)}
    (hreach : fs.Reaches rules.enters root d es) {p : Candidate × List Diagnostic}
    (h : (classify fs rules root d).outcome = .ok p) : ∀ x ∈ p.2, IsReal fs root x.location := by
  obtain ⟨q, names, rfl, rfl, hnames, hat⟩ := hreach.exists_place hw hroot
  have hbelow : ∀ x ∈ names, IsEntryName x := fun x hx => hnames x (List.mem_append_right q hx)
  intro x hx
  rcases location_of_mem_classify h x hx with hx | ⟨hfile, hx⟩
  · rw [hx]
    exact isReal_below hbelow (FileSystem.hasEntry_of_at? hw hat : fs.HasEntry ((Path.absolute q).below names))
  · rw [Path.join_ofString_part hmanifest.isPart] at hfile hx
    have hchild : (Path.absolute (q ++ names)).child rules.manifestName =
        (Path.absolute q).below (names ++ [rules.manifestName]) := Path.below_child (.absolute q) names _
    have hentry := hreach.hasEntry hw hmanifest.isStep hfile
    rw [hchild] at hentry hx
    rw [hx]
    exact isReal_below (List.forall_mem_append.2 ⟨hbelow, List.forall_mem_singleton.2 hmanifest⟩) hentry

/-- What is reported of a project below the scan root is located at an entry, and below the project unless it is about the
structure of the project or a file. -/
theorem checkProject_locations (hw : fs.WellFormed) (hcontracts : IsEntryName rules.contractsDir)
    (hname : IsEntryName rules.buildConfigName) (hroot : fs.resolve root = .ok root) {keep : String → Bool} {project : Path}
    {es : List (String × Node)} (hreach : fs.Reaches keep root project es) {ds : List Diagnostic}
    (h : (checkProject fs rules namingDirs root project).outcome = .ok ds) :
    ∀ d ∈ ds, IsReal fs root d.location ∧
      (d.kind ≠ .structureInvalid → ∃ names, names ≠ [] ∧ root.join (Path.ofString d.location) = project.below names) := by
  obtain ⟨q, names, rfl, rfl, hnames, hat⟩ := hreach.exists_place hw hroot
  have hbelow : ∀ x ∈ names, IsEntryName x := fun x hx => hnames x (List.mem_append_right q hx)
  intro d hd
  obtain ⟨path, hlocation, hback, ⟨hkind, rfl⟩ | hchecked⟩ :=
    checkProject_place hw hname.isPart hnames h hd
  · rw [hlocation]
    exact ⟨isReal_below hbelow (FileSystem.hasEntry_of_at? hw hat : fs.HasEntry ((Path.absolute q).below names)),
      fun hother => absurd hkind hother⟩
  · obtain ⟨more, hne, rfl, hmore, hentry⟩ := hchecked.exists_entry hw hcontracts hname hat hreach
    refine ⟨?_, fun _ => ⟨more, hne, hback⟩⟩
    have hall : (Path.absolute (q ++ names)).below more = (Path.absolute q).below (names ++ more) :=
      Path.below_below (.absolute q) names more
    rw [hall] at hentry
    rw [hlocation, hall]
    exact isReal_below (List.forall_mem_append.2 ⟨hbelow, hmore⟩) hentry

/-! ## Diagnostics of a run -/

/-- A diagnostic of a run is about something in the tree. -/
structure IsLocated (fs : FileSystem) (report : LintReport) (d : Diagnostic) : Prop where
  /-- Its location is real. -/
  real : IsReal fs report.scanRoot d.location
  /-- What is there is found by its path exactly when the path is not too long. -/
  found : (∃ n, fs.lstat? (report.scanRoot.join (Path.ofString d.location)) = .ok n) ↔
    (report.scanRoot.join (Path.ofString d.location)).text.utf8ByteSize < pathBytesLimit
  /-- What is said of a name or of a file that is referred to is said of something below a project. -/
  inProject : d.kind = .namingMismatch ∨ d.kind = .missingReferencedFile → ∃ c ∈ report.candidates, c.isValid = true ∧
    ∃ names, names ≠ [] ∧ report.scanRoot.join (Path.ofString d.location) = c.root.below names

/-- Every diagnostic of a run but the one about what lies beside the scan root is about something in the tree. The scan root has to
be canonical: one that runs into a circle of links and out of it again may be left at a link. -/
theorem lint_locations (hw : fs.WellFormed) {scanRoot : Path} {report : LintReport}
    (h : (lint fs {} namingDirs scanRoot).outcome = .ok report) (hroot : fs.resolve report.scanRoot = .ok report.scanRoot) :
    ∃ beside inside, (Check.surroundings fs {} report.scanRoot).outcome = .ok beside ∧
      report.diagnostics = beside ++ inside ∧ ∀ d ∈ inside, IsLocated fs report d := by
  obtain ⟨root, beside, found, inside, -, hbeside, hfound, hinside, rfl⟩ := lint_eq_ok.1 h
  refine ⟨beside, found.diagnostics ++ inside, hbeside, List.append_assoc .., fun d hd => ?_⟩
  suffices hreal : IsReal fs root d.location ∧ (d.kind = .namingMismatch ∨ d.kind = .missingReferencedFile →
      ∃ c ∈ found.candidates, c.isValid = true ∧ ∃ names, names ≠ [] ∧
        root.join (Path.ofString d.location) = c.root.below names) from
    ⟨hreal.1, FileSystem.exists_lstat?_iff.trans (and_iff_right hreal.1.entry), hreal.2⟩
  rcases List.mem_append.1 hd with hd | hd
  · obtain ⟨root', dirs, g, hroot', hdirs, hg, rfl⟩ := Discovery.discover_eq_ok.1 hfound
    rw [hroot] at hroot'
    cases hroot'
    obtain ⟨directory, hdirectory, hd⟩ := List.mem_flatMap.1 hd
    obtain ⟨es, hreach, -⟩ := (Discovery.mem_candidateDirs_iff hw hdirs).1 hdirectory
    refine ⟨Discovery.isReal_of_mem_classify hw (by decide) hroot hreach (hg directory hdirectory) d hd, fun hkind => ?_⟩
    exfalso
    rcases Discovery.kind_of_mem_classify (hg directory hdirectory) d hd with hk | hk
    · simp [hk] at hkind
    · simp [hk] at hkind
  · obtain ⟨g, hg, rfl⟩ := Logged.collect_eq_ok.1 hinside
    obtain ⟨project, hproject, hd⟩ := List.mem_flatMap.1 hd
    obtain ⟨es, hreach⟩ := Discovery.reaches_of_mem_validRoots hw hroot hfound hproject
    obtain ⟨hreal, hbelow⟩ :=
      checkProject_locations hw (by decide) (by decide) hroot hreach (hg project hproject) d hd
    refine ⟨hreal, fun hkind => ?_⟩
    obtain ⟨c, hc, rfl⟩ := List.mem_map.1 hproject
    obtain ⟨hmem, hvalid⟩ := List.mem_filter.1 hc
    refine ⟨c, hmem, hvalid, hbelow fun hk => ?_⟩
    simp [hk] at hkind

/-! ## Links and long paths -/

namespace Locations

/-- A project that is scanned through a link, and whose contracts lie behind another one. -/
def linkedTree : FileSystem where
  entries := [("shared", .dir [("Counter.fc", .file [])]), ("top", .link "w"),
    ("w", SampleTree.project [("contracts", .link "../shared"), ("scripts", .dir [("Deploy.ts", .file [])]),
      ("wrappers", .dir [("Counter.compile.ts", .file (SampleTree.octetsOf "target: 'contracts/gone.tact'"))])])]

theorem linkedTree_wellFormed : linkedTree.WellFormed := by decide

/-- A project, a link to it, and a link to itself. -/
def circleTree : FileSystem where
  entries := [("loop", .link "loop"), ("w", SampleTree.project [("scripts", .dir [("Deploy.ts", .file [])])]), ("x", .link "w")]

theorem circleTree_wellFormed : circleTree.WellFormed := by decide

/-- Directories of one name, each in the one before, around some entries. -/
def nested (entries : List (String × Node)) : Nat → List (String × Node)
  | 0 => entries
  | n + 1 => [("directory-of-project", .dir (nested entries n))]

/-- A compile file that is empty. -/
def compileFile : List (String × Node) := [("CounterWithARatherLongName.compile.ts", .file [])]

/-- A project with a compile file so deep in it that the path of its directory fits and its own path does not. -/
def deepTree : FileSystem := SampleTree.withProject (nested compileFile 194)

/-- The names that lead to the compile file. -/
def deepPlace : List String :=
  "w" :: (List.replicate 194 "directory-of-project" ++ ["CounterWithARatherLongName.compile.ts"])

/-- What is reported of the compile file, seen from the project. -/
def deepDiagnostic : Diagnostic :=
  Check.compileFileDiagnostic (relativeLocation (.absolute deepPlace) (.absolute ["w"]))
    (.lookup ⟨.nameTooLong, .absolute deepPlace⟩)

set_option maxRecDepth 20000 in
theorem deepTree_wellFormed : deepTree.WellFormed := by decide

theorem deepPlace_isEntryName : ∀ x ∈ deepPlace, IsEntryName x := by
  have hnames : IsEntryName "w" ∧ IsEntryName "directory-of-project" ∧
      IsEntryName "CounterWithARatherLongName.compile.ts" := by decide
  intro x hx
  rcases List.mem_cons.1 hx with rfl | hx
  · exact hnames.1
  · rcases List.mem_append.1 hx with hx | hx
    · rw [List.eq_of_mem_replicate hx]
      exact hnames.2.1
    · rw [List.mem_singleton.1 hx]
      exact hnames.2.2

set_option maxRecDepth 20000 in
theorem deepPlace_tooLong : pathBytesLimit ≤ (Path.absolute deepPlace).text.utf8ByteSize := by decide

/-- Directories in each other hold nothing but the next one, and the last one holds the compile file. -/
theorem lookup_nested {n : Nat} : ∀ {names : List String} {es : List (String × Node)} {name : String} {c : Node},
    (Node.dir (nested compileFile n)).at? names = some (.dir es) → es.lookup name = some c →
      name = "directory-of-project" ∨ name = "CounterWithARatherLongName.compile.ts" := by
  induction n with
  | zero =>
    intro names es name c hat hl
    cases names with
    | nil =>
      cases hat
      exact Or.inr (congrArg Prod.fst (List.mem_singleton.1 (Node.mem_of_lookup hl)))
    | cons first rest =>
      obtain ⟨_, m, hes, hm, hrest⟩ := Node.eq_dir_of_at?_cons hat
      cases hes
      obtain rfl : m = .file [] := congrArg Prod.snd (List.mem_singleton.1 (Node.mem_of_lookup hm))
      cases rest with
      | nil => nomatch hrest
      | cons _ _ => nomatch hrest
  | succ n ih =>
    intro names es name c hat hl
    cases names with
    | nil =>
      cases hat
      exact Or.inl (congrArg Prod.fst (List.mem_singleton.1 (Node.mem_of_lookup hl)))
    | cons first rest =>
      obtain ⟨_, m, hes, hm, hrest⟩ := Node.eq_dir_of_at?_cons hat
      cases hes
      obtain rfl : m = .dir (nested compileFile n) := congrArg Prod.snd (List.mem_singleton.1 (Node.mem_of_lookup hm))
      exact ih hrest hl

theorem stat?_project :
    deepTree.stat? (.absolute ["w"]) = .ok (SampleTree.project (nested compileFile 194)) :=
  FileSystem.stat?_eq_ok.2 ⟨by decide, ["w"], deepTree_wellFormed.route_absolute (SampleTree.at?_project _) rfl⟩

/-- What a walk enters in the project are the directories in each other. -/
theorem at?_entered {n : Nat} {name : String} {rest : List String} {es : List (String × Node)}
    (hkeep : ∀ x ∈ name :: rest, ({} : Rules).enters x = true)
    (hat : (SampleTree.project (nested compileFile (n + 1))).at? (name :: rest) = some (.dir es)) :
    (Node.dir (nested compileFile n)).at? rest = some (.dir es) := by
  obtain ⟨entries, c, hes, hl, hrest⟩ := Node.eq_dir_of_at?_cons hat
  cases hes
  have hname : ({} : Rules).enters name = true := hkeep name List.mem_cons_self
  have hmem := Node.mem_of_lookup hl
  simp only [nested, List.cons_append, List.nil_append, List.mem_cons, Prod.mk.injEq, List.not_mem_nil, or_false] at hmem
  rcases hmem with ⟨rfl, rfl⟩ | ⟨rfl, rfl⟩ | ⟨rfl, rfl⟩ | ⟨rfl, rfl⟩
  · cases rest <;> nomatch hrest
  · cases rest <;> nomatch hrest
  · exact absurd hname (by decide)
  · exact hrest

/-- What the walk comes to in the project is the project itself, or holds no manifest and no directory by which a project is
known. -/
theorem candidateDirs_deepTree : Discovery.candidateDirs deepTree {} (.absolute ["w"]) = .ok [.absolute ["w"]] := by
  have hnul : '\x00' ∉ (Path.absolute ["w"]).text.toList := by decide
  obtain ⟨dirs, hdirs⟩ := Discovery.exists_candidateDirs deepTree {} hnul
  have hmem : ∀ d, d ∈ dirs ↔ d ∈ [Path.absolute ["w"]] := by
    intro d
    rw [Discovery.mem_candidateDirs_iff deepTree_wellFormed hdirs, List.mem_singleton]
    constructor
    · rintro ⟨es, ⟨⟨n, names, hn, hat, hkeep, rfl⟩, -⟩, hc⟩
      rw [stat?_project] at hn
      cases hn
      cases names with
      | nil => rfl
      | cons name rest =>
        exfalso
        have hrest := at?_entered hkeep hat
        have hnames : ∀ x, x = "directory-of-project" ∨ x = "CounterWithARatherLongName.compile.ts" →
            x ≠ "package.json" ∧ x ∉ characteristicDirs := by
          rintro x (rfl | rfl)
          · decide
          · decide
        rcases hc with ⟨_, hl, -⟩ | ⟨x, hx, -, _, hl, -⟩
        · exact (hnames _ (lookup_nested hrest hl)).1 rfl
        · exact (hnames x (lookup_nested hrest hl)).2 hx
    · rintro rfl
      exact ⟨_, ⟨⟨_, [], stat?_project, rfl, by simp, rfl⟩, by decide⟩, Or.inl ⟨_, rfl, rfl⟩⟩
  have hperm : dirs.Perm [.absolute ["w"]] :=
    (List.perm_ext_iff_of_nodup (Discovery.candidateDirs_nodup hdirs) (List.nodup_singleton _)).2 hmem
  rw [hdirs, List.perm_singleton.1 hperm]

/-- The project is found, and nothing is wrong with its structure. -/
theorem discover_deepTree :
    (Discovery.discover deepTree {} (.absolute ["w"])).outcome = .ok ⟨[⟨.absolute ["w"], true, false, .valid⟩], []⟩ := by
  refine Discovery.discover_eq_ok.2 ⟨.absolute ["w"], [.absolute ["w"]],
    fun _ => (⟨.absolute ["w"], true, false, .valid⟩, []), ?_, candidateDirs_deepTree, List.forall_mem_singleton.2 ?_, rfl⟩
  · exact deepTree_wellFormed.resolve_absolute rfl rfl
  · decide

/-- The compile file cannot be read. -/
theorem checkProject_deepTree :
    (checkProject deepTree {} [] (.absolute ["w"]) (.absolute ["w"])).outcome =
      .ok [seenFrom (.absolute ["w"]) (.absolute ["w"]) deepDiagnostic] := by
  have hpaths : Check.compileFilePaths deepTree {} (.absolute ["w"]) = .ok [.absolute deepPlace] := by decide +kernel
  have hstat : deepTree.stat? (.absolute deepPlace) = .error .nameTooLong :=
    FileSystem.stat?_of_tooLong deepPlace_tooLong
  have htext : deepTree.text? (.absolute deepPlace) = .error (.lookup ⟨.nameTooLong, .absolute deepPlace⟩) := by
    rw [FileSystem.text?, FileSystem.octets?, hstat]
  have hscan : (SourceFile.scan deepTree {} (.absolute ["w"]) []).outcome = .ok [] :=
    SourceFile.scan_eq_ok.2 ⟨_, [], deepTree_wellFormed.resolve_absolute rfl rfl, rfl, by simp [SourceFile.sort]⟩
  have hduplicates : (Check.duplicateNames deepTree {} (.absolute ["w"])).outcome = .ok [] := by decide +kernel
  have hconfig : (Check.buildConfig deepTree {} (.absolute ["w"])).outcome = .ok [] := by decide +kernel
  have hcompile : (Check.compileFiles deepTree {} (.absolute ["w"])).outcome = .ok [deepDiagnostic] := by
    refine Logged.bind_eq_ok.2 ⟨_, hpaths, ?_⟩
    rw [Logged.outcome_collect_cons, Check.compileFile, htext]
    rfl
  have hreferences : (Check.references deepTree {} (.absolute ["w"])).outcome = .ok [deepDiagnostic] :=
    Logged.bind_eq_ok.2 ⟨_, hconfig, Logged.bind_eq_ok.2 ⟨_, hcompile, rfl⟩⟩
  rw [outcome_checkProject, projectDiagnostics_eq_ok.2 ⟨[], [], [], _, hscan, hduplicates, rfl, hreferences, rfl⟩]
  rfl

/-- The location leads to the compile file. -/
theorem join_deepDiagnostic :
    (Path.absolute ["w"]).join (Path.ofString (seenFrom (.absolute ["w"]) (.absolute ["w"]) deepDiagnostic).location) =
      .absolute deepPlace := by
  have hname : IsEntryName "w" := by decide
  rw [join_seenFrom (by exact nofun) (List.forall_mem_singleton.2 hname.isPart)]
  exact Files.join_location_absolute deepPlace_isEntryName _

end Locations

/-- The script and the compile file are reported where they are, below the project that the scanned link leads to. -/
theorem lint_locations_linkedTree :
    ∃ report, (lint Locations.linkedTree {} ["scripts"] (.absolute ["top"])).outcome = .ok report ∧
      report.diagnostics.map (·.location) = ["scripts/Deploy.ts", "wrappers/Counter.compile.ts"] ∧
      ∃ beside inside, (Check.surroundings Locations.linkedTree {} report.scanRoot).outcome = .ok beside ∧
        report.diagnostics = beside ++ inside ∧ ∀ d ∈ inside, IsLocated Locations.linkedTree report d := by
  have hrun : (lint Locations.linkedTree {} ["scripts"] (.absolute ["top"])).outcome.toOption.map
      (fun report => (report.scanRoot, report.diagnostics.map (·.location))) =
        some (.absolute ["w"], ["scripts/Deploy.ts", "wrappers/Counter.compile.ts"]) := by decide +kernel
  obtain ⟨report, h, hreport⟩ := exists_of_map_toOption hrun
  obtain ⟨hroot, hlocations⟩ := Prod.mk.inj hreport
  have hcanonical : Locations.linkedTree.resolve report.scanRoot = .ok report.scanRoot := by
    rw [hroot]
    exact Locations.linkedTree_wellFormed.resolve_absolute rfl rfl
  exact ⟨report, h, hlocations, lint_locations Locations.linkedTree_wellFormed h hcanonical⟩

/-- From a path that runs into a circle of links and out of it to a link the script is reported at an absolute location; and the
path of a compile file may be too long to be found, although the path of its directory is not. -/
theorem lint_locations_not_found :
    (Locations.circleTree.WellFormed ∧ ∃ report,
      (lint Locations.circleTree {} ["scripts"] (.absolute ["loop", "..", "x"])).outcome = .ok report ∧
        report.scanRoot = .absolute ["x"] ∧
        report.diagnostics.map (fun d => (d.kind, d.location)) = [(.namingMismatch, "/w/scripts/Deploy.ts")]) ∧
    Locations.deepTree.WellFormed ∧ ∃ report d,
      (lint Locations.deepTree {} [] (.absolute ["w"])).outcome = .ok report ∧ report.scanRoot = .absolute ["w"] ∧
        (Check.surroundings Locations.deepTree {} report.scanRoot).outcome = .ok [] ∧ report.diagnostics = [d] ∧
        ¬∃ n, Locations.deepTree.lstat? (report.scanRoot.join (Path.ofString d.location)) = .ok n := by
  refine ⟨⟨Locations.circleTree_wellFormed, ?_⟩, Locations.deepTree_wellFormed, ?_⟩
  · have hrun : (lint Locations.circleTree {} ["scripts"] (.absolute ["loop", "..", "x"])).outcome.toOption.map
        (fun report => (report.scanRoot, report.diagnostics.map fun d => (d.kind, d.location))) =
          some (.absolute ["x"], [(.namingMismatch, "/w/scripts/Deploy.ts")]) := by decide +kernel
    obtain ⟨report, h, hreport⟩ := exists_of_map_toOption hrun
    obtain ⟨hroot, hlocations⟩ := Prod.mk.inj hreport
    exact ⟨report, h, hroot, hlocations⟩
  · have hbeside : (Check.surroundings Locations.deepTree {} (.absolute ["w"])).outcome = .ok [] := by decide +kernel
    have hinside : (Logged.collect (checkProject Locations.deepTree {} [] (.absolute ["w"])) [.absolute ["w"]]).outcome =
        .ok [seenFrom (.absolute ["w"]) (.absolute ["w"]) Locations.deepDiagnostic] := by
      rw [Logged.outcome_collect_cons, Locations.checkProject_deepTree]
      rfl
    refine ⟨_, _, lint_eq_ok.2 ⟨.absolute ["w"], [], _, _, ?_, hbeside, Locations.discover_deepTree, hinside, rfl⟩, rfl,
      hbeside, rfl, ?_⟩
    · exact Locations.deepTree_wellFormed.resolve_absolute rfl rfl
    · rw [Locations.join_deepDiagnostic, FileSystem.exists_lstat?_iff]
      exact fun hfound => absurd Locations.deepPlace_tooLong (Nat.not_le.2 hfound.2)

end WorkspaceLint
