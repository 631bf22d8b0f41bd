import WorkspaceLint.LintRun
import WorkspaceLint.Proofs.Discovery

/-!
# How a lint run is made up

A run that succeeds is what lies beside the scan root, the discovery, and the checks of each project in turn (`lint_eq_ok`). The
checks of a project never fail: what fails inside becomes the one diagnostic of the project (`outcome_checkProject`).
-/

namespace WorkspaceLint

open Files (FileSystem)

/-- The roots of the projects that a run found. -/
def LintReport.projects (r : LintReport) : List Path := (r.candidates.filter (·.isValid)).map (·.root)

/-- The checks of a project succeed with the diagnostics of all of them in a row. -/
theorem projectDiagnostics_eq_ok {fs : FileSystem} {rules : Rules} {namingDirs : List String} {project : Path}
    {ds : List Diagnostic} :
    (projectDiagnostics fs rules namingDirs project).outcome = .ok ds ↔
      ∃ files duplicates wrappers references,
        (SourceFile.scan fs rules project namingDirs).outcome = .ok files ∧
        (Check.duplicateNames fs rules project).outcome = .ok duplicates ∧
        (Check.wrapperNames fs rules files).outcome = .ok wrappers ∧
        (Check.references fs rules project).outcome = .ok references ∧
        ds = Check.contractNames files ++ duplicates ++ wrappers ++ Check.scriptNames files ++ references := by
  simp only [projectDiagnostics, Logged.bind_eq_ok, Logged.pure_eq_ok, Logged.outcome_ok, Except.ok.injEq]
  constructor
  · rintro ⟨files, h1, duplicates, h2, wrappers, h3, references, h4, rfl⟩
    exact ⟨files, duplicates, wrappers, references, h1, h2, h3, h4, rfl⟩
  · rintro ⟨files, duplicates, wrappers, references, h1, h2, h3, h4, rfl⟩
    exact ⟨files, h1, duplicates, h2, wrappers, h3, references, h4, rfl⟩

/-- The diagnostics for a project: those of its checks, or the one for the failure that ended them. -/
theorem outcome_checkProject (fs : FileSystem) (rules : Rules) (namingDirs : List String) (scanRoot project : Path) :
    (checkProject fs rules namingDirs scanRoot project).outcome =
      match (projectDiagnostics fs rules namingDirs project).outcome with
      | .ok ds => .ok (ds.map (seenFrom scanRoot project))
      | .error e => .ok [failureDiagnostic (relativeLocation project scanRoot) e] := by
  simp only [checkProject, Logged.outcome_bind, Logged.outcome_log, Logged.outcome_recover, Logged.pure_eq_ok,
    Logged.outcome_ok]
  cases (projectDiagnostics fs rules namingDirs project).outcome <;> rfl

theorem exists_checkProject (fs : FileSystem) (rules : Rules) (namingDirs : List String) (scanRoot project : Path) :
    ∃ ds, (checkProject fs rules namingDirs scanRoot project).outcome = .ok ds := by
  rw [outcome_checkProject]
  split <;> exact ⟨_, rfl⟩

/-- A project for which nothing is reported has passed all its checks. -/
theorem checkProject_clean {fs : FileSystem} {rules : Rules} {namingDirs : List String} {scanRoot project : Path}
    (h : (checkProject fs rules namingDirs scanRoot project).outcome = .ok []) :
    (projectDiagnostics fs rules namingDirs project).outcome = .ok [] := by
  rw [outcome_checkProject] at h
  split at h
  · rename_i ds hds
    rw [Except.ok.injEq, List.map_eq_nil_iff] at h
    rw [hds, h]
  · nomatch h

/-- A location that is seen from the scan root leads from there to where it led from the project. -/
theorem join_seenFrom {scanRoot project : Path} (ha : project.anchor ≠ .relative) (hp : ∀ x ∈ project.parts, IsPart x)
    (d : Diagnostic) :
    scanRoot.join (Path.ofString (seenFrom scanRoot project d).location) = project.join (Path.ofString d.location) := by
  have hd := Path.isPart_ofString d.location
  apply join_relativeLocation
  · by_cases hr : (Path.ofString d.location).anchor = .relative
    · rw [Path.join_relative hr]
      exact ha
    · rw [Path.join_anchored hr]
      exact hr
  · by_cases hr : (Path.ofString d.location).anchor = .relative
    · rw [Path.join_relative hr]
      intro x hx
      rcases List.mem_append.1 hx with hx | hx
      · exact hp x hx
      · exact hd x hx
    · rw [Path.join_anchored hr]
      exact hd

/-- A run that succeeds reports what lies beside the scan root, what the discovery reports, and what the checks of the projects
report, in this order. -/
theorem lint_eq_ok {fs : FileSystem} {rules : Rules} {namingDirs : List String} {scanRoot : Path} {report : LintReport} :
    (lint fs rules namingDirs scanRoot).outcome = .ok report ↔
      ∃ root beside found inside, fs.resolve scanRoot = .ok root ∧
        (Check.surroundings fs rules root).outcome = .ok beside ∧
        (Discovery.discover fs rules root).outcome = .ok found ∧
        (Logged.collect (checkProject fs rules namingDirs root) found.validRoots).outcome = .ok inside ∧
        report = ⟨root, found.candidates, beside ++ found.diagnostics ++ inside⟩ := by
  simp only [lint, Logged.bind_eq_ok, Logged.outcome_ofExcept, Logged.outcome_log, Logged.pure_eq_ok, Logged.outcome_ok,
    Except.ok.injEq]
  constructor
  · rintro ⟨root, h1, -, -, beside, h2, found, h3, inside, h4, -, -, rfl⟩
    exact ⟨root, beside, found, inside, h1, h2, h3, h4, rfl⟩
  · rintro ⟨root, beside, found, inside, h1, h2, h3, h4, rfl⟩
    exact ⟨root, h1, (), trivial, beside, h2, found, h3, inside, h4, (), trivial, rfl⟩

end WorkspaceLint
