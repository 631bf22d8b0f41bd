import WorkspaceLint.Diagnostic
import WorkspaceLint.Files.Reading
import WorkspaceLint.Log
import WorkspaceLint.Source.ExportedClass
import WorkspaceLint.SourceFile

/-!
# Names of source files

Three rules, one for each category that has one: contracts are named in snake_case, scripts in lowerCamelCase, and wrappers in
PascalCase by the class that they export. Each rule looks at the files of its category and gives a file at most one diagnostic.
Only wrappers that are no compile files are read.
-/

namespace WorkspaceLint.Check

open Files (FileSystem)

/-- The diagnostic for a contract whose name is not in snake_case. -/
def contractDiagnostic? (f : SourceFile) : Option Diagnostic :=
  if f.stem = f.canonicalName then none
  else some {
    kind := .namingMismatch
    location := f.location.text
    message := "合约文件应使用 snake_case 命名。期望: '" ++ f.canonicalName ++ f.suffix ++ "'，实际: '" ++ f.name ++ "'。" }

/-- The diagnostics for the names of contracts. -/
def contractNames (files : List SourceFile) : List Diagnostic :=
  (files.filter (·.category = .contract)).filterMap contractDiagnostic?

/-- The diagnostic for a script whose name is not in lowerCamelCase. -/
def scriptDiagnostic? (f : SourceFile) : Option Diagnostic :=
  if Naming.isLowerCamelCase f.stem then none
  else some {
    kind := .namingMismatch
    location := f.location.text
    message := "脚本文件名 '" ++ f.name ++ "' 应使用 lowerCamelCase。" }

/-- The diagnostics for the names of scripts. -/
def scriptNames (files : List SourceFile) : List Diagnostic :=
  (files.filter (·.category = .script)).filterMap scriptDiagnostic?

/-- A name without as many characters at its end as an ending has. An empty ending leaves nothing. -/
def withoutEnding (name ending : String) : String :=
  if ending = "" then "" else String.ofList (name.toList.take (name.length - ending.length))

/-- The part of a wrapper's name that its class should have. -/
def wrapperStem (rules : Rules) (f : SourceFile) : String :=
  withoutEnding f.name (if f.isCompileVariant then rules.compileSuffix else rules.sourceExtension)

/-- The diagnostic for a wrapper whose name is not in PascalCase. -/
def wrapperStyleDiagnostic (f : SourceFile) (stem : String) : Diagnostic where
  kind := .namingMismatch
  location := f.location.text
  message := "Wrapper 文件 '" ++ f.name ++ "' 的名称部分 '" ++ stem ++ "' 应使用 PascalCase。"

/-- The diagnostic for a wrapper that cannot be read. -/
def wrapperUnreadableDiagnostic (f : SourceFile) (reason : String) : Diagnostic where
  kind := .structureInvalid
  location := f.location.text
  message := "无法读取 wrapper 文件 '" ++ f.name ++ "': " ++ reason

/-- The diagnostic for a wrapper that exports a class of another name. -/
def wrapperClassDiagnostic (f : SourceFile) (stem className : String) : Diagnostic where
  kind := .namingMismatch
  location := f.location.text
  message :=
    "Wrapper 文件名 '" ++ f.name ++ "'（名称部分 '" ++ stem ++ "'）与导出的类名 '" ++ className ++ "' 不一致。"

/-- The diagnostics for a wrapper by the class that its text exports. -/
def wrapperClassDiagnostics (f : SourceFile) (stem : String) (source : List Char) : List Diagnostic :=
  match Source.exportedClass? source with
  | some className =>
    if String.ofList className = stem then [] else [wrapperClassDiagnostic f stem (String.ofList className)]
  | none => []

/-- The diagnostics for the name of a wrapper. -/
def wrapperName (fs : FileSystem) (rules : Rules) (f : SourceFile) : Logged (List Diagnostic) :=
  let stem := wrapperStem rules f
  if !Naming.isPascalCase stem then Logged.ok [wrapperStyleDiagnostic f stem]
  else if f.isCompileVariant then Logged.ok []
  else
    match fs.text? f.path with
    | .ok source => Logged.ok (wrapperClassDiagnostics f stem source)
    | .error e => do
      Logged.log .warning ("无法读取 wrapper 文件 " ++ f.path.text ++ ": " ++ e.message)
      return [wrapperUnreadableDiagnostic f e.message]

/-- The diagnostics for the names of wrappers. -/
def wrapperNames (fs : FileSystem) (rules : Rules) (files : List SourceFile) : Logged (List Diagnostic) :=
  Logged.collect (wrapperName fs rules) (files.filter (·.category = .wrapper))

end WorkspaceLint.Check
