import WorkspaceLint.DataFile
import WorkspaceLint.Diagnostic
import WorkspaceLint.Log
import WorkspaceLint.ProjectFiles
import WorkspaceLint.Source.CompileTargets
import WorkspaceLint.Value.Literal

/-!
# Files that a build refers to

The build configuration names the source of each of its projects, and every compile file names the sources it is built from.
Each named path has to exist, seen from the root of the project. A file that cannot be read or parsed gets one diagnostic and
nothing else is said about it.
-/

namespace WorkspaceLint.Check

open Files (FileSystem)

/-- A source that the build configuration names. -/
structure BuildEntry where
  /-- The name of the entry. -/
  name : String
  /-- The path of the source. -/
  path : String

/-- The source that an entry of the build configuration names. -/
def BuildEntry.ofValue? (v : Value) : Option BuildEntry := do
  let path ← v.get? "path"
  if path.isGiven then some { name := ((v.get? "name").map Value.asText).getD "", path := path.asText } else none

/-- The sources that a build configuration names. -/
def buildEntries (v : Value) : List BuildEntry :=
  match v.get? "projects" with
  | some (.list entries) => entries.filterMap BuildEntry.ofValue?
  | _ => []

/-- Whether nothing exists at a path that is seen from the root of a project. -/
def isMissing (fs : FileSystem) (project : Path) (path : String) : Except Failure Bool :=
  (fs.exists? (project.join (Path.ofString path))).map (!·)

/-- The diagnostics for the sources in a list that do not exist. -/
def missingDiagnostics {α : Type} (fs : FileSystem) (project : Path) (path : α → String) (diagnostic : α → Diagnostic)
    (declared : List α) : Logged (List Diagnostic) :=
  Logged.collect (fun a => Logged.ofExcept ((isMissing fs project (path a)).map fun missing =>
    if missing then [diagnostic a] else [])) declared

/-- The diagnostic for a source that the build configuration names. -/
def buildEntryDiagnostic (rules : Rules) (e : BuildEntry) : Diagnostic where
  kind := .missingReferencedFile
  location := rules.buildConfigName
  message := rules.buildConfigName ++ " 中项目 '" ++ e.name ++ "' 声明的合约文件 '" ++ e.path ++ "' 不存在"
  namesLocation := true

/-- The diagnostic for a build configuration that has no value. -/
def buildConfigDiagnostic (rules : Rules) (fault : DataFileFault) : Diagnostic where
  kind := .structureInvalid
  location := rules.buildConfigName
  message := "无法读取或解析 " ++ rules.buildConfigName ++ ": " ++ fault.reason

/-- The diagnostics for the build configuration. -/
def buildConfig (fs : FileSystem) (rules : Rules) (project : Path) : Logged (List Diagnostic) := do
  let path := project.join (Path.ofString rules.buildConfigName)
  if !(← Logged.ofExcept (fs.exists? path)) then return []
  match ← Logged.ofExcept (loadJson fs path) with
  | .error fault =>
    Logged.log .warning ("无法解析 " ++ path.text ++ ": " ++ fault.reason)
    return [buildConfigDiagnostic rules fault]
  | .ok config =>
    missingDiagnostics fs project BuildEntry.path (buildEntryDiagnostic rules) (buildEntries config)

/-- The diagnostic for a source that a compile file names. -/
def targetDiagnostic (location form target : String) : Diagnostic where
  kind := .missingReferencedFile
  location := location
  message := location ++ " 的" ++ form ++ "中声明的合约文件 '" ++ target ++ "' 不存在"
  namesLocation := true

/-- The diagnostic for a compile file that has no text. -/
def compileFileDiagnostic (location : String) (e : Files.Unreadable) : Diagnostic where
  kind := .structureInvalid
  location := location
  message := "无法读取或解析 " ++ location ++ ": " ++ e.message

/-- The diagnostics for a compile file. -/
def compileFile (fs : FileSystem) (project path : Path) : Logged (List Diagnostic) :=
  let location := relativeLocation path project
  match fs.text? path with
  | .error e => do
    Logged.log .warning ("无法读取 " ++ path.text ++ ": " ++ e.message)
    return [compileFileDiagnostic location e]
  | .ok source =>
    match Source.declaredTargets source with
    | (targets, some form) =>
      missingDiagnostics fs project id (targetDiagnostic location form.label) (targets.map String.ofList)
    | (_, none) => Logged.ok []

/-- The compile files of a project, in the order of their paths. -/
def compileFilePaths (fs : FileSystem) (rules : Rules) (project : Path) : Except Failure (List Path) :=
  (projectFiles fs rules project).map fun paths => Path.sort (paths.filter (endsIn ·.name rules.compileSuffix))

/-- The diagnostics for the compile files of a project. -/
def compileFiles (fs : FileSystem) (rules : Rules) (project : Path) : Logged (List Diagnostic) := do
  let paths ← Logged.ofExcept (compileFilePaths fs rules project)
  Logged.collect (compileFile fs project) paths

/-- The diagnostics for all files that a build refers to. -/
def references (fs : FileSystem) (rules : Rules) (project : Path) : Logged (List Diagnostic) := do
  let ofConfig ← buildConfig fs rules project
  let ofCompileFiles ← compileFiles fs rules project
  return ofConfig ++ ofCompileFiles

end WorkspaceLint.Check
