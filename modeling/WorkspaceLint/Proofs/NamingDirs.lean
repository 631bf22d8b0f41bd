import WorkspaceLint.Proofs.CheckedFiles
import WorkspaceLint.Proofs.SampleTree
import WorkspaceLint.Proofs.ScanRoots

/-!
# What the directories of the naming rules change

A run in which the names below some directories are checked finds what a run in which none are checked finds, and more: the
further diagnostics come from the rules for names, and each is located below one of the directories (`lint_extends`).
-/

namespace WorkspaceLint

open Files (FileSystem Node IsEntryName)

variable {fs : FileSystem} {rules : Rules} {namingDirs : List String} {scanRoot project : Path}

/-! ## Lists with further members -/

/-- A list is another one with further members among its members, each of which has a property. -/
inductive ExtendedBy {α : Type} (further : α → Prop) : List α → List α → Prop where
  /-- Nothing is added to nothing. -/
  | nil : ExtendedBy further [] []
  /-- A member of both. -/
  | kept {l l' : List α} (a : α) (rest : ExtendedBy further l l') : ExtendedBy further (a :: l) (a :: l')
  /-- A further member. -/
  | added {l l' : List α} {a : α} (property : further a) (rest : ExtendedBy further l l') : ExtendedBy further l (a :: l')

namespace ExtendedBy

variable {α : Type} {further : α → Prop} {l l' m m' : List α}

theorem refl : ∀ l : List α, ExtendedBy further l l
  | [] => .nil
  | a :: rest => .kept a (refl rest)

theorem of_forall : ∀ {l : List α}, (∀ a ∈ l, further a) → ExtendedBy further [] l
  | [], _ => .nil
  | _ :: _, h => .added (h _ List.mem_cons_self) (of_forall fun a ha => h a (List.mem_cons_of_mem _ ha))

theorem append (h : ExtendedBy further l l') (hm : ExtendedBy further m m') : ExtendedBy further (l ++ m) (l' ++ m') := by
  induction h with
  | nil => exact hm
  | kept a _ ih => exact .kept a ih
  | added ha _ ih => exact .added ha ih

theorem map {β : Type} {further' : β → Prop} {f : α → β} (hf : ∀ a, further a → further' (f a)) (h : ExtendedBy further l l') :
    ExtendedBy further' (l.map f) (l'.map f) := by
  induction h with
  | nil => exact .nil
  | kept a _ ih => exact .kept (f a) ih
  | added ha _ ih => exact .added (hf _ ha) ih

theorem mono {further' : α → Prop} (hf : ∀ a, further a → further' a) (h : ExtendedBy further l l') :
    ExtendedBy further' l l' := by
  induction h with
  | nil => exact .nil
  | kept a _ ih => exact .kept a ih
  | added ha _ ih => exact .added (hf _ ha) ih

/-- The members of the smaller list stand in the larger one in the same order. -/
theorem sublist (h : ExtendedBy further l l') : l.Sublist l' := by
  induction h with
  | nil => exact .slnil
  | kept a _ ih => exact ih.cons_cons a
  | added _ _ ih => exact ih.cons _

end ExtendedBy

/-! ## What the rules for names report -/

theorem Check.exists_wrapperNames (fs : FileSystem) (rules : Rules) (files : List SourceFile) :
    ∃ ds, (wrapperNames fs rules files).outcome = .ok ds := by
  refine Logged.exists_collect_iff.2 fun f _ => ?_
  obtain ⟨ds, hds, -⟩ := exists_wrapperName fs rules f
  exact ⟨ds, hds⟩

/-- A scan of no directories finds nothing, where any scan succeeds. -/
theorem scan_nil {files : List SourceFile} (h : (SourceFile.scan fs rules project namingDirs).outcome = .ok files) :
    (SourceFile.scan fs rules project []).outcome = .ok [] := by
  obtain ⟨root, -, hroot, -, -⟩ := SourceFile.scan_eq_ok.1 h
  exact SourceFile.scan_eq_ok.2 ⟨root, [], hroot, rfl, by simp [SourceFile.sort]⟩

/-- What is scanned in a directory has a location in one of the target directories, below it. -/
theorem exists_below_of_mem_scan {r : Files.Found} {es : List (String × Node)} (hr : fs.route project = .ok r)
    (hdir : r.node = .dir es) {files : List SourceFile}
    (h : (SourceFile.scan fs rules project namingDirs).outcome = .ok files) {f : SourceFile} (hf : f ∈ files) :
    ∃ dir ∈ namingDirs, ∃ names, (Path.ofString dir).anchor = .relative ∧ names ≠ [] ∧
      f.location.parts = (Path.ofString dir).parts ++ names := by
  obtain ⟨dir, hmem, hrelative, hprefix⟩ := SourceFile.exists_target_of_mem_scan h hf
  have hparent : f.location.parent.parts = f.location.parts.dropLast := rfl
  rw [hparent] at hprefix
  obtain ⟨names, hnames⟩ := hprefix.trans (List.dropLast_prefix f.location.parts)
  refine ⟨dir, hmem, names, hrelative, ?_, hnames.symm⟩
  rintro rfl
  rw [List.append_nil] at hnames
  have hlength := hprefix.length_le
  rw [hnames, List.length_dropLast] at hlength
  have hnil : f.location.parts = [] := List.eq_nil_of_length_eq_zero (by omega)
  obtain ⟨root, position, content, hroot, hp, hat, hl⟩ := SourceFile.of_mem_scan h hf
  obtain ⟨-, hbelow⟩ := Path.relativeTo?_eq_some hl
  rw [hnil, Path.below_nil, FileSystem.resolve_eq_ok hroot, FileSystem.canonicalPosition_of_route hr, hp] at hbelow
  rw [show position = r.position from congrArg Path.parts hbelow, (FileSystem.route_spec hr).1, hdir] at hat
  nomatch hat

/-- A diagnostic that a rule for names gives for a file of a project, below one of the directories whose names are checked. -/
structure IsNamedBelow (fs : FileSystem) (rules : Rules) (namingDirs : List String) (scanRoot project : Path)
    (d : Diagnostic) : Prop where
  /-- A rule for names gives it for what is scanned. -/
  reported : ∃ files found, (SourceFile.scan fs rules project namingDirs).outcome = .ok files ∧
    Check.IsNamingDiagnostic fs rules files found ∧ d = seenFrom scanRoot project found
  /-- It is located below one of the directories, seen from the project. -/
  below : ∃ dir ∈ namingDirs, ∃ names, (Path.ofString dir).anchor = .relative ∧ names ≠ [] ∧
    scanRoot.join (Path.ofString d.location) = (project.join (Path.ofString dir)).below names

/-- Where directories can be scanned the checks of a project report what they report without them, and what the rules for names
report. -/
theorem projectDiagnostics_extends {files : List SourceFile}
    (hfiles : (SourceFile.scan fs rules project namingDirs).outcome = .ok files) :
    Logged.RelatedBy (ExtendedBy (Check.IsNamingDiagnostic fs rules files)) (projectDiagnostics fs rules [] project)
      (projectDiagnostics fs rules namingDirs project) := by
  obtain ⟨wrappers, hwrappers⟩ := Check.exists_wrapperNames fs rules files
  have hcontract : ExtendedBy (Check.IsNamingDiagnostic fs rules files) [] (Check.contractNames files) :=
    .of_forall fun _ hd => Or.inl hd
  have hwrapper : ExtendedBy (Check.IsNamingDiagnostic fs rules files) [] wrappers :=
    .of_forall fun _ hd => Or.inr (Or.inl ⟨wrappers, hwrappers, hd⟩)
  have hscript : ExtendedBy (Check.IsNamingDiagnostic fs rules files) [] (Check.scriptNames files) :=
    .of_forall fun _ hd => Or.inr (Or.inr hd)
  have hscans : Logged.RelatedBy (fun none found => none = [] ∧ found = files) (SourceFile.scan fs rules project [])
      (SourceFile.scan fs rules project namingDirs) := Or.inr ⟨[], files, scan_nil hfiles, hfiles, rfl, rfl⟩
  have hnames : Logged.RelatedBy (fun none found => none = [] ∧ found = wrappers) (Check.wrapperNames fs rules [])
      (Check.wrapperNames fs rules files) := Or.inr ⟨[], wrappers, rfl, hwrappers, rfl, rfl⟩
  rw [projectDiagnostics, projectDiagnostics]
  refine hscans.bind ?_
  rintro _ _ - - ⟨rfl, rfl⟩
  refine Logged.RelatedBy.bind_of_eq rfl fun duplicates _ => hnames.bind ?_
  rintro _ _ - - ⟨rfl, rfl⟩
  refine Logged.RelatedBy.bind_of_eq rfl fun references _ => Or.inr ⟨_, _, rfl, rfl, ?_⟩
  exact (((hcontract.append (.refl duplicates)).append hwrapper).append hscript).append (.refl references)

/-- What a rule for names gives for what is scanned in a project is located below one of the directories. -/
theorem isNamedBelow (hw : fs.WellFormed) {place : List String} (hplace : ∀ x ∈ place, IsEntryName x) {q : List String}
    {es : List (String × Node)} (hroute : fs.route (.absolute place) = .ok ⟨q, .dir es⟩) {files : List SourceFile}
    (hfiles : (SourceFile.scan fs rules (.absolute place) namingDirs).outcome = .ok files) {d : Diagnostic}
    (hd : Check.IsNamingDiagnostic fs rules files d) :
    IsNamedBelow fs rules namingDirs scanRoot (.absolute place) (seenFrom scanRoot (.absolute place) d) := by
  refine ⟨⟨files, d, hfiles, hd, rfl⟩, ?_⟩
  obtain ⟨f, hf, hlocation⟩ := hd.exists_file
  obtain ⟨hrelative, hnames⟩ := location_of_mem_scan hw hfiles hf
  obtain ⟨dir, hdir, names, hanchor, hne, hparts⟩ := exists_below_of_mem_scan hroute rfl hfiles hf
  refine ⟨dir, hdir, names, hanchor, hne, ?_⟩
  have hread : Path.ofString f.location.text = f.location := Path.ofString_text fun x hx => (hnames x hx).isPart
  rw [join_seenFrom (by exact nofun) (fun x hx => (hplace x hx).isPart), hlocation, hread, hrelative, hparts,
    Path.join_relative hanchor, Path.below_below]
  rfl

/-- What is reported of a project where directories are scanned. -/
theorem checkProject_extends (hw : fs.WellFormed) {place : List String} (hplace : ∀ x ∈ place, IsEntryName x) {q : List String}
    {es : List (String × Node)} (hroute : fs.route (.absolute place) = .ok ⟨q, .dir es⟩) {files : List SourceFile}
    (hfiles : (SourceFile.scan fs rules (.absolute place) namingDirs).outcome = .ok files) :
    Logged.RelatedBy (ExtendedBy (IsNamedBelow fs rules namingDirs scanRoot (.absolute place)))
      (checkProject fs rules [] scanRoot (.absolute place)) (checkProject fs rules namingDirs scanRoot (.absolute place)) := by
  rw [Logged.RelatedBy, outcome_checkProject, outcome_checkProject]
  rcases projectDiagnostics_extends hfiles with ⟨e, hbare, hnamed⟩ | ⟨ds, ds', hbare, hnamed, hds⟩
  · rw [hbare, hnamed]
    exact Or.inr ⟨_, _, rfl, rfl, .refl _⟩
  · rw [hbare, hnamed]
    exact Or.inr ⟨_, _, rfl, rfl, hds.map fun d hd => isNamedBelow hw hplace hroute hfiles hd⟩

/-- Where the directories can be scanned in every project, a run that checks the names below them has the candidates of a run that
checks no names, and its diagnostics: further ones stand among them, each from a rule for names and about a file of a project
below one of the directories. When one of the runs fails so does the other one, in the same way. -/
theorem lint_extends (hw : fs.WellFormed) (hscan : ∀ bare, (lint fs rules [] scanRoot).outcome = .ok bare →
      ∀ project ∈ bare.projects, ∃ files, (SourceFile.scan fs rules project namingDirs).outcome = .ok files) :
    Logged.RelatedBy (fun bare report => report.scanRoot = bare.scanRoot ∧ report.candidates = bare.candidates ∧
        bare.diagnostics.Sublist report.diagnostics ∧
        ExtendedBy (fun d => ∃ project ∈ report.projects, IsNamedBelow fs rules namingDirs report.scanRoot project d)
          bare.diagnostics report.diagnostics)
      (lint fs rules [] scanRoot) (lint fs rules namingDirs scanRoot) := by
  rw [lint, lint]
  refine Logged.RelatedBy.bind_of_eq rfl fun root hroot => ?_
  refine Logged.RelatedBy.bind_of_eq rfl fun _ _ => ?_
  refine Logged.RelatedBy.bind_of_eq rfl fun beside hbeside => ?_
  refine Logged.RelatedBy.bind_of_eq rfl fun found hfound => ?_
  obtain ⟨inside, hinside⟩ := Logged.exists_collect_iff.2 fun project (_ : project ∈ found.validRoots) =>
    exists_checkProject fs rules [] root project
  have hbare := hscan _ (lint_eq_ok.2 ⟨root, beside, found, inside, hroot, hbeside, hfound, hinside, rfl⟩)
  have hprojects : Logged.RelatedBy
      (ExtendedBy fun d => ∃ project ∈ found.validRoots, IsNamedBelow fs rules namingDirs root project d)
      (Logged.collect (checkProject fs rules [] root) found.validRoots)
      (Logged.collect (checkProject fs rules namingDirs root) found.validRoots) := by
    refine Logged.RelatedBy.collect .nil ExtendedBy.append fun project hproject => ?_
    obtain ⟨files, hfiles⟩ := hbare project hproject
    obtain ⟨start, hstart⟩ := Discovery.exists_place_of_mem_validRoots hw hfound
    obtain ⟨place, es, rfl, hplace, hreach⟩ := hstart project hproject
    obtain ⟨q, hroute⟩ := hreach.route hw
    exact (checkProject_extends hw hplace hroute hfiles).mono fun ds ds' hds => hds.mono fun d hd => ⟨_, hproject, hd⟩
  refine hprojects.bind fun inside inside' _ _ hextended => Or.inr ⟨_, _, rfl, rfl, rfl, rfl, ?_⟩
  have hall := (ExtendedBy.refl (beside ++ found.diagnostics)).append hextended
  exact ⟨hall.sublist, hall⟩

namespace NamingDirs

/-- A project with a script that is not named as it should be and a compile file that names a contract that is not there. -/
def tree : FileSystem :=
  SampleTree.withProject [("scripts", .dir [("Deploy.ts", .file [])]),
    ("wrappers", .dir [("Counter.compile.ts", .file (SampleTree.octetsOf "target: 'contracts/gone.tact'"))])]

/-- The project, which is also scanned. -/
def root : Path := .absolute ["w"]

theorem tree_wellFormed : tree.WellFormed := by decide

/-- The scripts of each project can be scanned. -/
theorem exists_scan {bare : LintReport} (h : (lint tree {} [] root).outcome = .ok bare) :
    ∀ p ∈ bare.projects, ∃ files, (SourceFile.scan tree {} p ["scripts"]).outcome = .ok files := by
  have hprojects : (lint tree {} [] root).outcome.toOption.map (·.projects) = some [root] := by decide +kernel
  have hscan : ((SourceFile.scan tree {} root ["scripts"]).outcome.toOption.map (·.map SourceFile.name)) =
      some ["Deploy.ts"] := by decide +kernel
  obtain ⟨_, hbare, hroot⟩ := exists_of_map_toOption hprojects
  rw [h] at hbare
  cases hbare
  intro p hp
  rw [hroot, List.mem_singleton] at hp
  obtain ⟨files, hfiles, -⟩ := exists_of_map_toOption hscan
  exact ⟨files, hp ▸ hfiles⟩

end NamingDirs

/-- The script is reported besides the compile file. -/
theorem lint_extends_script :
    ∃ bare report, (lint NamingDirs.tree {} [] NamingDirs.root).outcome = .ok bare ∧
      (lint NamingDirs.tree {} ["scripts"] NamingDirs.root).outcome = .ok report ∧
      bare.diagnostics.map (·.location) = ["wrappers/Counter.compile.ts"] ∧
      report.diagnostics.map (·.location) = ["scripts/Deploy.ts", "wrappers/Counter.compile.ts"] ∧
      report.candidates = bare.candidates ∧ bare.diagnostics.Sublist report.diagnostics ∧
      ExtendedBy (fun d => ∃ p ∈ report.projects, IsNamedBelow NamingDirs.tree {} ["scripts"] report.scanRoot p d)
        bare.diagnostics report.diagnostics := by
  have hlocations : ((lint NamingDirs.tree {} [] NamingDirs.root).outcome.toOption.map fun r => r.diagnostics.map (·.location)) =
        some ["wrappers/Counter.compile.ts"] ∧
      ((lint NamingDirs.tree {} ["scripts"] NamingDirs.root).outcome.toOption.map fun r => r.diagnostics.map (·.location)) =
        some ["scripts/Deploy.ts", "wrappers/Counter.compile.ts"] := by decide +kernel
  rcases lint_extends NamingDirs.tree_wellFormed fun _ h => NamingDirs.exists_scan h with
    ⟨e, hbare, -⟩ | ⟨bare, report, hbare, hreport, -, hcandidates, hsublist, hextended⟩
  · rw [hbare] at hlocations
    nomatch hlocations.1
  · rw [hbare, hreport] at hlocations
    exact ⟨bare, report, hbare, hreport, Option.some.inj hlocations.1, Option.some.inj hlocations.2, hcandidates, hsublist,
      hextended⟩

end WorkspaceLint
