import WorkspaceLint.Candidate
import WorkspaceLint.Check.Structure
import WorkspaceLint.Files.Canonical
import WorkspaceLint.Files.Walk

/-!
# Finding projects

A walk below the scan root, without hidden directories and the dependency cache, collects the directories with a manifest or a
characteristic directory, in the order of their paths. Each is then classified: with a manifest it is a project when its
structure is whole; without one it is a broken scaffold when a characteristic directory is there.
-/

namespace WorkspaceLint.Discovery

open Files (FileSystem Visit)

/-- Whether a directory on the walk is a candidate. -/
def isCandidate (rules : Rules) (v : Visit) : Bool :=
  v.files.contains rules.manifestName || v.dirs.any (rules.characteristicDirs.contains ·)

/-- The candidate directories below a scan root. -/
def candidateDirs (fs : FileSystem) (rules : Rules) (scanRoot : Path) : Except Failure (List Path) :=
  (fs.walkFrom rules.enters scanRoot).map fun visits =>
    Path.sort ((visits.filter (isCandidate rules)).map (·.path)).eraseDups

/-- The diagnostic for a directory that has characteristic directories and no manifest. -/
def scaffoldDiagnostic (rules : Rules) (scanRoot directory : Path) (existing : List String) : Diagnostic :=
  let location := relativeLocation directory scanRoot
  let scope := if directory = scanRoot then "顶层目录" else "目录"
  { kind := .brokenScaffold
    location := location
    message := "\n".intercalate
      ([scope ++ " '" ++ location ++ "' 有误: 不要用 'npx blueprint create' 搭建整个项目，请改用 '" ++
          rules.scaffoldFixCommand ++ "'。",
        "  检测到特征目录但缺少 '" ++ rules.manifestName ++ "'，建议删除:"] ++
      existing.map fun name => "    - " ++ (directory.join (Path.ofString name)).text) }

/-- What a directory with or without a manifest is, given its characteristic directories and the faults of its structure. -/
def classificationOf (hasManifest : Bool) (existing : List String) (faults : List Diagnostic) : Classification :=
  if hasManifest then (if faults = [] then .valid else .brokenScaffold)
  else if existing = [] then .ignorable
  else .brokenScaffold

/-- A directory classified, and the diagnostics for it. -/
def classify (fs : FileSystem) (rules : Rules) (scanRoot directory : Path) : Logged (Candidate × List Diagnostic) := do
  let hasManifest ← Logged.ofExcept (fs.isFile? (directory.join (Path.ofString rules.manifestName)))
  let existing ← Logged.ofExcept (Files.namesBelow fs.isDir? directory rules.characteristicDirs)
  let diagnostics ←
    if hasManifest then Check.structureOf fs rules scanRoot directory
    else Logged.ok (if existing = [] then [] else [scaffoldDiagnostic rules scanRoot directory existing])
  return (⟨directory, hasManifest, existing ≠ [], classificationOf hasManifest existing diagnostics⟩, diagnostics)

/-- What a discovery finds. -/
structure Result where
  /-- The candidates, in the order of their paths. -/
  candidates : List Candidate
  /-- The diagnostics, in the order of the candidates. -/
  diagnostics : List Diagnostic

/-- The roots of the projects among the candidates. -/
def Result.validRoots (r : Result) : List Path := (r.candidates.filter (·.isValid)).map (·.root)

/-- One directory classified, with an event that says how. -/
def classifyLogged (fs : FileSystem) (rules : Rules) (scanRoot directory : Path) :
    Logged (List (Candidate × List Diagnostic)) := do
  let found ← classify fs rules scanRoot directory
  Logged.log .debug ("候选目录 " ++ relativeLocation directory scanRoot ++ ": " ++ found.1.classification.label)
  return [found]

/-- The discovery below the canonical path of a scan root. -/
def discover (fs : FileSystem) (rules : Rules) (scanRoot : Path) : Logged Result := do
  let scanRoot ← Logged.ofExcept (fs.resolve scanRoot)
  let directories ← Logged.ofExcept (candidateDirs fs rules scanRoot)
  let found ← Logged.collect (classifyLogged fs rules scanRoot) directories
  return ⟨found.map (·.1), found.flatMap (·.2)⟩

end WorkspaceLint.Discovery
