import WorkspaceLint.Proofs.CheckedFiles
import WorkspaceLint.Proofs.SampleTree
import WorkspaceLint.Proofs.ScanRoots

/-!
# Projects inside of projects

The walks of a project do not stop at a project below it, so a project is also judged on files of the projects inside of it. What
is reported of a project lies in the project; the nearest project that encloses it is another one only for a file that a walk
comes to, or where the build configuration of the outer project is itself a project (`checkProject_nearest`). A compile file of an
inner project is checked against the outer one too.
-/

namespace WorkspaceLint

open Files (FileSystem Node IsEntryName pathBytesLimit)

variable {fs : FileSystem} {rules : Rules} {namingDirs : List String} {scanRoot project : Path}

/-! ## The nearest of some directories -/

namespace Path

/-- Of two directories that a path lies in one lies in the other. -/
theorem IsWithin.total {p q r : Path} (hq : p.IsWithin q) (hr : p.IsWithin r) : q.IsWithin r ∨ r.IsWithin q := by
  obtain ⟨names, rfl⟩ := hq
  obtain ⟨more, hmore⟩ := hr
  have hanchor := congrArg Path.anchor hmore
  rw [below_anchor, below_anchor] at hanchor
  have hparts : q.parts ++ names = r.parts ++ more := congrArg Path.parts hmore
  rcases List.prefix_or_prefix_of_prefix (List.prefix_append q.parts names) (hparts ▸ List.prefix_append r.parts more) with h | h
  · exact Or.inr (isWithin_of_parts hanchor.symm h)
  · exact Or.inl (isWithin_of_parts hanchor h)

/-- Two paths that lie in each other are the same. -/
theorem IsWithin.antisymm {p q : Path} (h : p.IsWithin q) (h' : q.IsWithin p) : p = q := by
  obtain ⟨names, rfl⟩ := h
  obtain ⟨more, hmore⟩ := h'
  rw [below_below] at hmore
  have hnil : names ++ more = [] := below_inj.1 (hmore.symm.trans (below_nil q).symm)
  rw [(List.append_eq_nil_iff.1 hnil).1, below_nil]

/-- Nothing lies between a path and one of its children. -/
theorem eq_of_child_isWithin {p q : Path} {name : String} (hq : q.IsWithin p) (h : (p.child name).IsWithin q) :
    q = p ∨ p.child name = q :=
  (child_isWithin_iff.1 h).imp_left hq.antisymm

end Path

/-- The nearest of some directories that a path lies in: the path lies in it, and it lies in every other one that the path lies
in. -/
structure IsNearest (directories : List Path) (nearest path : Path) : Prop where
  /-- It is one of the directories. -/
  mem : nearest ∈ directories
  /-- The path lies in it. -/
  within : path.IsWithin nearest
  /-- It lies in every directory that the path lies in. -/
  nearest : ∀ other ∈ directories, path.IsWithin other → nearest.IsWithin other

/-- There is a nearest directory among those that a path lies in. -/
theorem exists_isNearest {path : Path} : ∀ {directories : List Path}, (∃ d ∈ directories, path.IsWithin d) →
    ∃ nearest, IsNearest directories nearest path
  | [], h => by
    obtain ⟨_, hd, -⟩ := h
    nomatch hd
  | first :: rest, h => by
    by_cases hrest : ∃ d ∈ rest, path.IsWithin d
    · obtain ⟨nearest, hmem, hwithin, hall⟩ := exists_isNearest hrest
      by_cases hfirst : path.IsWithin first
      · rcases hwithin.total hfirst with hin | hin
        · exact ⟨nearest, List.mem_cons_of_mem _ hmem, hwithin, List.forall_mem_cons.2 ⟨fun _ => hin, hall⟩⟩
        · exact ⟨first, List.mem_cons_self, hfirst,
            List.forall_mem_cons.2 ⟨fun _ => .refl first, fun d hd hp => hin.trans (hall d hd hp)⟩⟩
      · exact ⟨nearest, List.mem_cons_of_mem _ hmem, hwithin, List.forall_mem_cons.2 ⟨fun hp => absurd hp hfirst, hall⟩⟩
    · obtain ⟨d, hd, hp⟩ := h
      rcases List.mem_cons.1 hd with rfl | hd
      · exact ⟨d, List.mem_cons_self, hp,
          List.forall_mem_cons.2 ⟨fun _ => .refl d, fun other hother hp => absurd ⟨other, hother, hp⟩ hrest⟩⟩
      · exact absurd ⟨d, hd, hp⟩ hrest

/-! ## Walks through inner projects -/

/-- A file that is reached from a directory inside of another one is reached from that one. -/
theorem Files.FileSystem.ReachesFile.of_within (hw : fs.WellFormed) {keep : String → Bool} {root inner path : Path}
    {es es' : List (String × Node)} (hproject : fs.Reaches keep root project es) (hinner : fs.Reaches keep root inner es')
    (hin : inner.IsWithin project) (h : fs.ReachesFile keep inner path) : fs.ReachesFile keep project path := by
  obtain ⟨directory, entries, name, n, hreach, hn, hl, rfl⟩ := h
  obtain ⟨hreach, hbelow⟩ := (hinner.below_iff hw).1 hreach
  have hdirectory : directory.IsWithin project := (Path.isWithin_iff.2 hbelow).trans hin
  exact ⟨directory, entries, name, n, (hproject.below_iff hw).2 ⟨hreach, Path.isWithin_iff.1 hdirectory⟩, hn, hl, rfl⟩

/-- A compile file that is reached from a project is checked against it, and what is wrong with it is reported. -/
theorem compileFile_of_projectDiagnostics (hw : fs.WellFormed) {found : List Diagnostic}
    (h : (projectDiagnostics fs rules namingDirs project).outcome = .ok found) {path : Path}
    (hreach : fs.ReachesFile rules.enters project path) (hname : endsIn path.name rules.compileSuffix = true) :
    ∃ ofFile, (Check.compileFile fs project path).outcome = .ok ofFile ∧ ofFile ⊆ found := by
  obtain ⟨files, duplicates, wrappers, references, -, -, -, hreferences, rfl⟩ := projectDiagnostics_eq_ok.1 h
  simp only [Check.references, Check.compileFiles, Logged.bind_eq_ok, Logged.outcome_ofExcept, Logged.pure_eq_ok,
    Logged.outcome_ok, Except.ok.injEq] at hreferences
  obtain ⟨ofConfig, -, ofCompileFiles, ⟨paths, hpaths, hcompile⟩, rfl⟩ := hreferences
  obtain ⟨g, hg, rfl⟩ := Logged.collect_eq_ok.1 hcompile
  have hpath := (Check.mem_compileFilePaths_iff hw hpaths).2 ⟨hreach, hname⟩
  refine ⟨g path, hg path hpath, fun d hd => List.mem_append_right _ (List.mem_append_right _ ?_)⟩
  exact List.mem_flatMap.2 ⟨path, hpath, hd⟩

/-- The nearest project around the root of a project, or around something that is checked in it, lies in the project. -/
theorem IsChecked.exists_nearest (hw : fs.WellFormed) {roots : List Path} (hproject : project ∈ roots) {path : Path}
    (h : path = project ∨ IsChecked fs rules namingDirs project path) :
    ∃ nearest, IsNearest roots nearest path ∧ nearest.IsWithin project ∧
      (nearest = project ∨ path = nearest ∨ IsWalked fs rules namingDirs project path) := by
  have hwithin : path.IsWithin project := by
    rcases h with rfl | hchecked
    · exact .refl path
    · exact hchecked.isWithin hw
  obtain ⟨nearest, hnearest⟩ := exists_isNearest ⟨project, hproject, hwithin⟩
  have hin := hnearest.nearest project hproject hwithin
  refine ⟨nearest, hnearest, hin, ?_⟩
  rcases h with rfl | ⟨hwalked⟩ | -
  · exact Or.inl (hin.antisymm hnearest.within)
  · exact Or.inr (Or.inr hwalked)
  · exact (Path.eq_of_child_isWithin hin hnearest.within).imp_right Or.inl

namespace NestedProjects

/-- A project inside of another one; its compile file names a contract of the inner project. -/
def tree : FileSystem where
  entries := [("w", SampleTree.project [("sub", SampleTree.project [("contracts", .dir [("counter.tact", .file [])]),
    ("wrappers", .dir [("Counter.compile.ts", .file (SampleTree.octetsOf "target: 'contracts/counter.tact'"))])])])]

/-- The outer project, which is also scanned. -/
def outer : Path := .absolute ["w"]

/-- The inner project. -/
def inner : Path := .absolute ["w", "sub"]

/-- The compile file of the inner project. -/
def compileFile : Path := inner.below ["wrappers", "Counter.compile.ts"]

/-- What is reported of the outer project: it has no contract of that name. -/
def diagnostic : Diagnostic :=
  seenFrom outer outer
    (Check.targetDiagnostic "sub/wrappers/Counter.compile.ts" Source.TargetForm.field.label "contracts/counter.tact")

/-- The report of a run in the outer project. -/
def report : LintReport where
  scanRoot := outer
  candidates := [⟨outer, true, false, .valid⟩, ⟨inner, true, true, .valid⟩]
  diagnostics := [diagnostic]

theorem tree_wellFormed : tree.WellFormed := by decide

theorem candidateDirs_tree : Discovery.candidateDirs tree {} outer = .ok [outer, inner] :=
  Discovery.candidateDirs_of_pairwise (by decide) (by decide)

theorem lint_tree : (lint tree {} [] outer).outcome = .ok report := by
  have hresolve : tree.resolve outer = .ok outer := tree_wellFormed.resolve_absolute rfl rfl
  have hfound : (Discovery.discover tree {} outer).outcome = .ok ⟨report.candidates, []⟩ := by
    refine Discovery.discover_eq_ok.2 ⟨outer, [outer, inner], fun d => (⟨d, true, d ≠ outer, .valid⟩, []), hresolve,
      candidateDirs_tree, ?_, rfl⟩
    decide +kernel
  have hbeside : (Check.surroundings tree {} outer).outcome = .ok [] := by decide +kernel
  have hinside : (Logged.collect (checkProject tree {} [] outer) [outer, inner]).outcome = .ok [diagnostic] := by decide +kernel
  exact lint_eq_ok.2 ⟨outer, [], _, _, hresolve, hbeside, hfound, hinside, rfl⟩

end NestedProjects

/-- What is reported of a project of a run lies in the project, and the nearest project around it is the project itself, or one
inside of it whose root it is, or one inside of it when it is a file that a walk of the project comes to. When the checks of the
project succeed, every compile file of a project inside of it is checked against it. -/
theorem checkProject_nearest (hw : fs.WellFormed) (hname : IsPart rules.buildConfigName) {report : LintReport}
    (h : (lint fs rules namingDirs scanRoot).outcome = .ok report) (hproject : project ∈ report.projects) :
    ∃ ds, (checkProject fs rules namingDirs report.scanRoot project).outcome = .ok ds ∧
      (∀ d ∈ ds, ∃ nearest, IsNearest report.projects nearest (report.scanRoot.join (Path.ofString d.location)) ∧
        nearest.IsWithin project ∧
          (nearest = project ∨ report.scanRoot.join (Path.ofString d.location) = nearest ∨
            IsWalked fs rules namingDirs project (report.scanRoot.join (Path.ofString d.location)))) ∧
      ((∃ found, (projectDiagnostics fs rules namingDirs project).outcome = .ok found) →
        ∀ inner ∈ report.projects, inner.IsWithin project → ∀ path, fs.ReachesFile rules.enters inner path →
          endsIn path.name rules.compileSuffix = true → ∃ ofFile, (Check.compileFile fs project path).outcome = .ok ofFile ∧
            ∀ d ∈ ofFile, seenFrom report.scanRoot project d ∈ ds) := by
  obtain ⟨scanned, beside, found, inside, -, -, hfound, -, rfl⟩ := lint_eq_ok.1 h
  obtain ⟨root, hroots⟩ := Discovery.exists_place_of_mem_validRoots hw hfound
  obtain ⟨place, es, rfl, hplace, hreach⟩ := hroots project hproject
  obtain ⟨ds, hds⟩ := exists_checkProject fs rules namingDirs scanned (.absolute place)
  refine ⟨ds, hds, fun d hd => ?_, ?_⟩
  · obtain ⟨path, -, hback, hpath⟩ := checkProject_place hw hname hplace hds hd
    rw [hback]
    exact IsChecked.exists_nearest hw hproject (hpath.imp_left And.right)
  · rintro ⟨diagnostics, hdiagnostics⟩ inner hinner hin path hpath hcompile
    rw [outcome_checkProject, hdiagnostics] at hds
    cases hds
    obtain ⟨_, es', rfl, -, hreach'⟩ := hroots inner hinner
    obtain ⟨ofFile, hofFile, hsub⟩ :=
      compileFile_of_projectDiagnostics hw hdiagnostics (hpath.of_within hw hreach hreach' hin) hcompile
    exact ⟨ofFile, hofFile, fun d hd => List.mem_map.2 ⟨d, hsub hd, rfl⟩⟩

/-- The compile file of the inner project is checked against the outer one, and reported of it. -/
theorem checkProject_nearest_tree :
    ∃ ds ofFile, (checkProject NestedProjects.tree {} [] NestedProjects.outer NestedProjects.outer).outcome = .ok ds ∧
      (∀ d ∈ ds, ∃ nearest, IsNearest NestedProjects.report.projects nearest
        (NestedProjects.outer.join (Path.ofString d.location)) ∧ nearest.IsWithin NestedProjects.outer) ∧
      (Check.compileFile NestedProjects.tree NestedProjects.outer NestedProjects.compileFile).outcome = .ok ofFile ∧
      ∀ d ∈ ofFile, seenFrom NestedProjects.outer NestedProjects.outer d ∈ ds := by
  have hproject : NestedProjects.outer ∈ NestedProjects.report.projects := by decide
  obtain ⟨ds, hds, hnearest, hinner⟩ := checkProject_nearest NestedProjects.tree_wellFormed
    ⟨by decide, by decide, by decide⟩ NestedProjects.lint_tree hproject
  have hfound : (projectDiagnostics NestedProjects.tree {} [] NestedProjects.outer).outcome.toOption.map (·.length) = some 1 := by
    decide +kernel
  obtain ⟨found, hfound, -⟩ := exists_of_map_toOption hfound
  have hreach : NestedProjects.tree.ReachesFile ({} : Rules).enters NestedProjects.inner NestedProjects.compileFile :=
    ⟨NestedProjects.inner.child "wrappers", _, "Counter.compile.ts", _, ⟨⟨_, ["wrappers"], rfl, rfl, by decide, rfl⟩, by decide⟩, rfl,
      rfl, rfl⟩
  obtain ⟨ofFile, hofFile, hsub⟩ := hinner ⟨found, hfound⟩ NestedProjects.inner (by decide) ⟨["sub"], rfl⟩ NestedProjects.compileFile
    hreach (by decide)
  refine ⟨ds, ofFile, hds, fun d hd => ?_, hofFile, hsub⟩
  obtain ⟨nearest, hisNearest, hin, -⟩ := hnearest d hd
  exact ⟨nearest, hisNearest, hin⟩

/-- What is reported of the outer project lies in the inner one, against which nothing is wrong with it. -/
theorem checkProject_reports_inner :
    NestedProjects.tree.WellFormed ∧
      (lint NestedProjects.tree {} [] NestedProjects.outer).outcome = .ok NestedProjects.report ∧
      NestedProjects.report.projects = [NestedProjects.outer, NestedProjects.inner] ∧
      ∃ d, (checkProject NestedProjects.tree {} [] NestedProjects.report.scanRoot NestedProjects.outer).outcome = .ok [d] ∧
        NestedProjects.report.scanRoot.join (Path.ofString d.location) = NestedProjects.compileFile ∧
        IsNearest NestedProjects.report.projects NestedProjects.inner NestedProjects.compileFile ∧
        (Check.compileFile NestedProjects.tree NestedProjects.inner NestedProjects.compileFile).outcome = .ok [] := by
  refine ⟨NestedProjects.tree_wellFormed, NestedProjects.lint_tree, rfl, NestedProjects.diagnostic, ?_, ?_, ?_, ?_⟩
  · decide +kernel
  · decide
  · refine ⟨by decide, ⟨_, rfl⟩, ?_⟩
    rintro other hother -
    rcases List.mem_pair.1 hother with rfl | rfl
    · exact ⟨["sub"], rfl⟩
    · exact .refl _
  · decide +kernel

end WorkspaceLint
