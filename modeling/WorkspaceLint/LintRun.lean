import WorkspaceLint.Check.Duplicates
import WorkspaceLint.Check.Naming
import WorkspaceLint.Check.References
import WorkspaceLint.Check.Surroundings
import WorkspaceLint.Discovery
import WorkspaceLint.SourceScan

/-!
# A lint run

First what lies beside the scan root is looked at, then projects are looked for, and then every project that is whole is checked
by itself. A failure inside a project becomes one diagnostic for that project and leaves the others alone; any other failure ends
the run.
-/

namespace WorkspaceLint

open Files (FileSystem)

/-- What a run reports. -/
structure LintReport where
  /-- The canonical path of the scan root. -/
  scanRoot : Path
  /-- The candidates that were found. -/
  candidates : List Candidate
  /-- The diagnostics, in the order in which they were made. -/
  diagnostics : List Diagnostic

/-- Whether a run reports nothing. -/
def LintReport.isClean (r : LintReport) : Bool := r.diagnostics.isEmpty

/-- The exit code for a report: zero when nothing is reported and one otherwise. -/
def LintReport.exitCode (r : LintReport) : Nat := if r.isClean then 0 else 1

/-- The diagnostics for the files of a project, with locations seen from its root: names of contracts, duplicates, names of
wrappers, names of scripts, and references, in this order. -/
def projectDiagnostics (fs : FileSystem) (rules : Rules) (namingDirs : List String) (project : Path) :
    Logged (List Diagnostic) := do
  let files ← SourceFile.scan fs rules project namingDirs
  let duplicates ← Check.duplicateNames fs rules project
  let wrappers ← Check.wrapperNames fs rules files
  let references ← Check.references fs rules project
  return Check.contractNames files ++ duplicates ++ wrappers ++ Check.scriptNames files ++ references

/-- The diagnostic for a failure inside a project. -/
def failureDiagnostic (location : String) (e : Failure) : Diagnostic where
  kind := .structureInvalid
  location := location
  message := "检查 " ++ location ++ " 时发生意外错误: " ++ e.message

/-- A diagnostic with its location seen from the scan root instead of the root of a project. -/
def seenFrom (scanRoot project : Path) (d : Diagnostic) : Diagnostic :=
  d.relocated (relativeLocation (project.join (Path.ofString d.location)) scanRoot)

/-- The diagnostics for a project, with locations seen from the scan root. -/
def checkProject (fs : FileSystem) (rules : Rules) (namingDirs : List String) (scanRoot project : Path) :
    Logged (List Diagnostic) := do
  let location := relativeLocation project scanRoot
  Logged.log .debug ("检查项目: " ++ location)
  let found : Logged (List Diagnostic) := do
    let diagnostics ← projectDiagnostics fs rules namingDirs project
    return diagnostics.map (seenFrom scanRoot project)
  found.recover fun e => do
    Logged.log .error ("检查项目 " ++ location ++ " 时发生意外错误")
    return [failureDiagnostic location e]

/-- A run below a scan root. -/
def lint (fs : FileSystem) (rules : Rules) (namingDirs : List String) (scanRoot : Path) : Logged LintReport := do
  let scanRoot ← Logged.ofExcept (fs.resolve scanRoot)
  Logged.log .debug ("开始扫描: " ++ scanRoot.text)
  let beside ← Check.surroundings fs rules scanRoot
  let found ← Discovery.discover fs rules scanRoot
  let inside ← Logged.collect (checkProject fs rules namingDirs scanRoot) found.validRoots
  let diagnostics := beside ++ found.diagnostics ++ inside
  Logged.log .debug ("扫描完成: " ++ toString found.candidates.length ++ " 个候选目录, " ++
    toString found.validRoots.length ++ " 个有效项目, " ++ toString diagnostics.length ++ " 条诊断")
  return ⟨scanRoot, found.candidates, diagnostics⟩

end WorkspaceLint
