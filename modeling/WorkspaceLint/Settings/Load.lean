import WorkspaceLint.Settings.Basic
import WorkspaceLint.Settings.EnvFile
import WorkspaceLint.Settings.Mapping

/-!
# Where settings come from

Values are looked for in a configuration file first, then among the variables of the environment, then in the file `.env` of the
working directory. Names are compared without regard to case; of several entries of a configuration file for one field the first
counts, and of several variables the last. Keys that start with an underscore are entries like others here: what they may say about
the loading itself is left out.
-/

namespace WorkspaceLint.Settings

open Files (FileSystem)

/-- Why settings could not be made. -/
inductive LoadError where
  /-- The configuration file holds no map. -/
  | mapping (e : MappingError)
  /-- A key of the configuration file is no text. -/
  | keyNotText
  /-- The file of variables is no text. -/
  | envFile (e : Files.Unreadable)
  /-- A path could not be looked up. -/
  | lookup (e : Failure)
  /-- Fields do not take their values. -/
  | invalid (faults : List FieldError)

/-- The message for settings that could not be made. -/
def LoadError.message : LoadError → String
  | .mapping e => e.message
  | .keyNotText => "keys of the configuration file must be texts"
  | .envFile e => e.message
  | .lookup e => e.message
  | .invalid faults => "\n".intercalate (faults.map fun f => f.field.name ++ ": " ++ f.fault.message)

/-- What settings are loaded from. -/
structure Surroundings where
  /-- The file system. -/
  files : FileSystem
  /-- The working directory. -/
  directory : Path
  /-- The variables of the environment. What a library reads from variables of its own is left out. -/
  environment : List (String × String)

/-- The name of the file of variables. -/
def envFileName : String := ".env"

/-- The variables that the file of variables names. -/
def Surroundings.fileVariables (w : Surroundings) : Except LoadError (List (String × Option String)) := do
  let path := w.directory.child envFileName
  if !(← (w.files.isFile? path).mapError .lookup) then return []
  let text ← (w.files.text? path).mapError .envFile
  return variablesOf w.environment text

/-- The value of a variable, whose name may be written in any case; the last of several counts, and it may have no value. -/
def variableIn? (vars : List (String × Option String)) (name : String) : Option String :=
  (vars.reverse.find? fun v => Text.lowered v.1 == name).bind (·.2)

/-- The value of the first entry of a map whose key is a name in any case. -/
def entryIn? (entries : List (Value × Value)) (name : String) : Option Value :=
  (entries.find? fun e => match e.1 with
    | .text key => Text.lowered key == name
    | _ => false).map (·.2)

/-- The value for a field name, given the entries of a configuration file and the start of the names of variables. -/
def lookup? (startOfNames : String) (entries : List (Value × Value)) (environment fileVariables : List (String × Option String))
    (name : String) : Option Value :=
  let variableName := startOfNames ++ name
  (entryIn? entries name).orElse fun _ => ((variableIn? environment variableName).orElse fun _ =>
    variableIn? fileVariables variableName).map Value.text

/-- Whether a key is a text. -/
def isTextKey : Value → Bool
  | .text _ => true
  | _ => false

/-- The value of each field name by what is around and the entries of a configuration file. -/
def Surroundings.values (w : Surroundings) (startOfNames : String) (entries : List (Value × Value)) :
    Except LoadError (String → Option Value) := do
  if !entries.all fun e => isTextKey e.1 then throw .keyNotText
  return lookup? startOfNames entries (w.environment.map fun (name, value) => (name, some value)) (← w.fileVariables)

/-- What the names of variables for settings start with, in lower case. -/
def startOfNames : String := "blueprint_lint_"

/-- The settings by what is around and the entries of a configuration file. -/
def Surroundings.settings (w : Surroundings) (entries : List (Value × Value)) : Except LoadError Settings := do
  let value? ← w.values startOfNames entries
  (ofFields fun field => value? field.name).mapError .invalid

/-- The entries of the configuration file at a path, and none without a path. -/
def Surroundings.entries (w : Surroundings) : Option Path → Except LoadError (List (Value × Value))
  | none => .ok []
  | some path => (loadMapping w.files path).mapError .mapping

/-- The settings by what is around and a configuration file. -/
def Surroundings.load (w : Surroundings) (config : Option Path) : Except LoadError Settings := do
  w.settings (← w.entries config)

/-- The log level of an application that has no other settings, by what is around and a configuration file. Its variable has
the name of the field. -/
def Surroundings.logLevel (w : Surroundings) (config : Option Path) : Except LoadError String := do
  let value? ← w.values "" (← w.entries config)
  (fieldOr .logLevel textOf "INFO" (value? Field.logLevel.name)).mapError fun e => .invalid [e]

/-- What a message about settings that could not be loaded starts with. -/
def loadFailed (cause : String) : String := "配置加载失败: " ++ cause

end WorkspaceLint.Settings
