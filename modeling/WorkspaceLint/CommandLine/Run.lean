import WorkspaceLint.CommandLine.Arguments
import WorkspaceLint.CommandLine.Libraries
import WorkspaceLint.LintRun
import WorkspaceLint.Report.Data
import WorkspaceLint.Report.Plain

/-!
# A call of the program

From arguments to an exit code and what is written. The code is 0 when nothing is reported, 1 when something is, and 2 when the
arguments or settings are refused or the run fails. The report goes to the standard output as JSON and to the error output as
text; events always go to the error output. A level that does not exist, a key of the configuration file that is no text, and
faults of libraries that a call is not prepared for end the call without an exit code of its own.
-/

namespace WorkspaceLint.CommandLine

open Settings (Surroundings)

/-- What a call writes, and its exit code. -/
structure Finished where
  /-- The exit code. -/
  exitCode : Nat
  /-- What is written to the standard output. -/
  stdout : String
  /-- What is written to the error output. -/
  stderr : String
deriving DecidableEq

/-- How a call ends, by what may end it without an exit code of its own. -/
inductive Ending (γ : Type) where
  /-- It comes to its end. -/
  | finished (f : Finished)
  /-- Something ends it. -/
  | crashed (c : γ)

/-- The same ending, for whoever calls what ends a call by another name. -/
def Ending.map {γ δ : Type} (f : γ → δ) : Ending γ → Ending δ
  | .finished f => .finished f
  | .crashed c => .crashed (f c)

/-- The version of the program. -/
def version : String := "0.1.0"

/-- The text for a call that asks for the version. -/
def versionText : String := "blueprint-lint v" ++ version ++ "\n"

/-- The text for a call that asks for help. It stands in for the text that an option library lays out. -/
def helpText : String :=
  "Usage: blueprint-lint [OPTIONS] [PATH]\n\n" ++
  "  --json              write the report as JSON to the standard output\n" ++
  "  -d, --dirs TEXT     directories whose names are checked, with commas between them\n" ++
  "  -c, --config FILE   configuration file (.yaml, .yml or .json)\n" ++
  "  -v, --verbose       log every step\n" ++
  "  --version           write the version\n" ++
  "  --help              write this text\n"

variable {ε : Type}

/-- The end of a call that is refused or fails. -/
def refused (message : String) : Ending (Escape ε) := .finished ⟨2, "", message ++ "\n"⟩

/-- An event as it is written. It stands in for the line of a logger, which has the time and the place of the event as well. -/
def eventLine (e : Event) : String := "LOG " ++ e.level.name ++ " " ++ e.message ++ "\n"

/-- Events as they are written. -/
def eventLines (events : List Event) : String := "".intercalate (events.map eventLine)

/-- The event for a lint run that fails. -/
def runFailed : Event := ⟨.error, "lint 运行失败"⟩

/-- The end of a lint run whose events pass a level. -/
def finish (lib : Libraries ε) (isJson : Bool) (threshold : Level) (run : Logged LintReport) : Ending (Escape ε) :=
  let log := eventLines (passing threshold run.events)
  match run.outcome with
  | .error e =>
    .finished ⟨2, "", log ++ eventLines (passing threshold [runFailed]) ++ "发生意外错误: " ++ e.message ++ "\n"⟩
  | .ok report =>
    if report.isClean then .finished ⟨report.exitCode, "", log⟩
    else if isJson then
      let text := Report.json report.diagnostics ++ "\n"
      match lib.write text with
      | .error e => .crashed (.library e)
      | .ok () => .finished ⟨report.exitCode, text, log⟩
    else .finished ⟨report.exitCode, "", log ++ Report.plain report.diagnostics ++ "\n"⟩

/-- The directories whose names a request wants checked. -/
def Request.namingDirs (r : Request) (s : Settings) : List String := (r.dirs.map parseDirList).getD s.targetDirs

/-- The name of the level from which a request wants events logged. -/
def Request.levelName (r : Request) (s : Settings) : String := if r.isVerbose then "DEBUG" else s.logLevel

/-- The lint run of a request. -/
def Request.run (w : Surroundings) (scanPath : Path) (r : Request) (s : Settings) : Logged LintReport := do
  Logged.log .debug ("命名检查目录: " ++ Text.quotedList (r.namingDirs s))
  lint w.files s.rules (r.namingDirs s) scanPath

/-- A path as it is seen from the working directory, when it leads to a node of some kind. -/
def fitPath (w : Surroundings) (kind : Files.Node → Bool) (text : String) : Except UsageError Path :=
  let path := w.directory.join (Path.ofString text)
  match w.files.stat? path with
  | .ok n => if kind n then .ok path else .error (.unfitPath text)
  | .error _ => .error (.unfitPath text)

/-- The path that a request wants scanned. -/
def Request.scanPath (w : Surroundings) (r : Request) : Except UsageError Path :=
  match r.path with
  | none => .ok w.directory
  | some text => fitPath w Files.Node.isDir text

/-- The path of the configuration file of a request. -/
def Request.configPath (w : Surroundings) (r : Request) : Except UsageError (Option Path) :=
  match r.config with
  | none => .ok none
  | some text => (fitPath w Files.Node.isFile text).map some

/-- How a lint call ends. -/
def Request.ending (lib : Libraries ε) (w : Surroundings) (r : Request) : Ending (Escape ε) :=
  match r.scanPath w, r.configPath w with
  | .error e, _ => refused e.message
  | _, .error e => refused e.message
  | .ok scanPath, .ok config =>
    match lib.load w config with
    | .error (.expected message) => refused (Settings.loadFailed message)
    | .error (.unexpected e) => .crashed e
    | .ok s =>
      match Level.ofAnyCase (r.levelName s) with
      | .error name => .crashed (.unknownLevel name)
      | .ok threshold => finish lib r.isJson threshold (r.run w scanPath s)

/-- How a call with given arguments ends. -/
def runWith (lib : Libraries ε) (w : Surroundings) (args : List String) : Ending (Escape ε) :=
  match callOf args with
  | .error e => refused e.message
  | .ok .version => .finished ⟨0, versionText, ""⟩
  | .ok .help => .finished ⟨0, helpText, ""⟩
  | .ok (.lint r) => r.ending lib w

/-! ### With the libraries as they are modelled -/

/-- What ends a call without an exit code of its own. -/
inductive Crash where
  /-- There is no such log level. -/
  | unknownLevel (name : String)
  /-- A key of the configuration file is no text. -/
  | keyNotText
  /-- A node of the configuration file cannot be read as its tag or its escapes ask. -/
  | scalar (e : Yaml.Error)

/-- What escapes from a call as what ends it. -/
def Crash.ofEscape : Escape Yaml.Error → Crash
  | .unknownLevel name => .unknownLevel name
  | .keyNotText => .keyNotText
  | .library e => .scalar e

/-- How a call ends with the libraries as they are modelled. -/
abbrev Outcome := Ending Crash

/-- How a call with given arguments ends with the libraries as they are modelled. -/
def run (w : Surroundings) (args : List String) : Outcome := (runWith modelled w args).map Crash.ofEscape

end WorkspaceLint.CommandLine
