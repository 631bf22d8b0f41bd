import WorkspaceLint.DataFile
import WorkspaceLint.Diagnostic
import WorkspaceLint.Log
import WorkspaceLint.Rules

/-!
# The structure of a project

What a directory with a manifest needs to be a project: a manifest that declares the required dependency, the configuration
file, and the installed module. Each requirement is looked at whatever became of the others, and each that fails gives exactly
one diagnostic.
-/

namespace WorkspaceLint.Check

open Files (FileSystem)

/-- Whether a manifest declares a dependency in one of the sections. -/
def declaresDependency (rules : Rules) (manifest : Value) : Bool :=
  rules.dependencySections.any fun name =>
    match manifest.get? name with
    | some (.map entries) => ((Value.map entries).get? rules.requiredDependency).any (·.isGiven)
    | _ => false

/-- A diagnostic about the structure of a project. -/
def structureDiagnostic (location message : String) : Diagnostic where
  kind := .structureInvalid
  location := location
  message := message

/-- The diagnostics for the manifest of a project. -/
def manifest (fs : FileSystem) (rules : Rules) (scanRoot project : Path) : Logged (List Diagnostic) := do
  let path := project.join (Path.ofString rules.manifestName)
  let location := relativeLocation path scanRoot
  match ← Logged.ofExcept (loadJsonMap fs path) with
  | .error fault =>
    Logged.log .warning ("无法解析 " ++ path.text ++ ": " ++ fault.reason)
    return [structureDiagnostic location ("无法读取或解析 '" ++ rules.manifestName ++ "': " ++ fault.reason)]
  | .ok manifest =>
    return if declaresDependency rules manifest then []
      else [structureDiagnostic location ("未找到关键依赖 '" ++ rules.requiredDependency ++ "'。")]

/-- A diagnostic for a path that has to exist, when it does not. -/
def required (fs : FileSystem) (path : Path) (diagnostic : Diagnostic) : Logged (List Diagnostic) :=
  Logged.ofExcept ((fs.exists? path).map fun there => if there then [] else [diagnostic])

/-- The path of the module that has to be installed, seen from the root of a project. -/
def modulePath (rules : Rules) : Path := (rules.requiredModulePath.map Path.ofString).foldl Path.join (Path.ofParts [])

/-- The diagnostics for the structure of a project. -/
def structureOf (fs : FileSystem) (rules : Rules) (scanRoot project : Path) : Logged (List Diagnostic) := do
  let location := relativeLocation project scanRoot
  let ofManifest ← manifest fs rules scanRoot project
  let ofConfig ← required fs (project.join (Path.ofString rules.requiredConfig))
    (structureDiagnostic location ("未找到配置文件 '" ++ rules.requiredConfig ++ "'。"))
  let ofModule ← required fs (project.join (modulePath rules))
    (structureDiagnostic location ("未找到本地 blueprint 安装 '" ++ (modulePath rules).text ++ "'。是否已运行 '" ++
      rules.installCommand ++ "'？"))
  return ofManifest ++ ofConfig ++ ofModule

end WorkspaceLint.Check
