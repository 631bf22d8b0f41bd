import WorkspaceLint.Proofs.ExitCode
import WorkspaceLint.Proofs.JsonReports
import WorkspaceLint.Proofs.NestedProjects
import WorkspaceLint.Proofs.QuietRuns

/-!
# What a call writes

The standard output is for reports as JSON, and for the texts that were asked for. A lint call writes nothing to it without
diagnostics or without `--json`, and else one JSON text that is read back as the diagnostics; neither the form of the report nor
the level from which events are logged shows in its exit code; and from the level that is the default a run without diagnostics
is silent (`run_output`).
-/

namespace WorkspaceLint

/-! ## Events of a level -/

namespace CommandLine

open Settings (Surroundings)

/-! ## Flags before other arguments -/

variable {w : Surroundings} {r : Request} {f : Finished}

theorem refused_ne_finished (hcode : f.exitCode ≠ 2) (message : String) :
    (refused message : Ending (Escape Yaml.Error)) ≠ .finished f := by
  intro h
  cases h
  exact hcode rfl

/-- A request that does not end with the code 2 has paths that fit. -/
theorem exists_paths (h : r.ending modelled w = .finished f) (hcode : f.exitCode ≠ 2) :
    ∃ scanPath config, r.scanPath w = .ok scanPath ∧ r.configPath w = .ok config := by
  rw [Request.ending] at h
  cases hscan : r.scanPath w with
  | error e =>
    rw [hscan] at h
    exact absurd h (refused_ne_finished hcode _)
  | ok scanPath =>
    cases hconfig : r.configPath w with
    | error e =>
      rw [hscan, hconfig] at h
      exact absurd h (refused_ne_finished hcode _)
    | ok config => exact ⟨scanPath, config, rfl, rfl⟩

/-- A request that does not end with the code 2 has paths that fit, settings with a level, and a run with a report. -/
theorem exists_report (h : r.ending modelled w = .finished f) (hcode : f.exitCode ≠ 2) : ∃ scanPath config s threshold report,
    r.scanPath w = .ok scanPath ∧ r.configPath w = .ok config ∧ w.load config = .ok s ∧
      Level.ofAnyCase (r.levelName s) = .ok threshold ∧
      (lint w.files s.rules (r.namingDirs s) scanPath).outcome = .ok report ∧
      finish modelled r.isJson threshold (r.run w scanPath s) = .finished f := by
  obtain ⟨scanPath, config, hscan, hconfig⟩ := exists_paths h hcode
  obtain ⟨c, -, ho⟩ | ⟨message, -, ho⟩ | ⟨s, hload, ⟨name, -, ho⟩ | ⟨threshold, hlevel, ho⟩⟩ :=
    ending_cases modelled hscan hconfig
  · nomatch ho.symm.trans h
  · exact absurd (ho.symm.trans h) (refused_ne_finished hcode _)
  · nomatch ho.symm.trans h
  · rw [ho] at h
    cases hrun : (lint w.files s.rules (r.namingDirs s) scanPath).outcome with
    | error e =>
      obtain ⟨f', hf', hcode'⟩ := finish_of_error modelled ((outcome_run w scanPath r s).trans hrun) r.isJson threshold
      cases hf'.symm.trans h
      exact absurd hcode' hcode
    | ok report =>
      exact ⟨scanPath, config, s, threshold, report, hscan, hconfig, load_modelled_eq_ok.1 hload, hlevel, hrun, h⟩

variable {scanPath : Path} {config : Option Path} {s : WorkspaceLint.Settings} {report : LintReport}

/-- A project inside of another one that lacks a contract, with the settings that are the default. -/
def nested : Surroundings where
  files := NestedProjects.tree
  directory := .absolute []
  environment := []

end CommandLine

end WorkspaceLint
