import WorkspaceLint.Naming.Style
import WorkspaceLint.Rules

/-!
# Source files

A source file of a project, with the category that decides which rule its name has to follow. The category hangs on the name of
the file and on the target directory it was found under.
-/

namespace WorkspaceLint

/-- What a source file is for. -/
inductive SourceCategory where
  /-- A contract. -/
  | contract
  /-- A script. -/
  | script
  /-- A wrapper of a contract. -/
  | wrapper
  /-- A test. -/
  | test
deriving DecidableEq

/-- The name of a category. -/
def SourceCategory.label : SourceCategory → String
  | .contract => "CONTRACT_SOURCE"
  | .script => "SCRIPT_SOURCE"
  | .wrapper => "WRAPPER_SOURCE"
  | .test => "TEST_SOURCE"

/-- A source file of a project. -/
structure SourceFile where
  /-- The canonical path of the file. -/
  path : Path
  /-- The path seen from the canonical root of the project. -/
  location : Path
  /-- What the file is for. -/
  category : SourceCategory
  /-- Whether the file is the compile file of a wrapper. -/
  isCompileVariant : Bool
deriving DecidableEq

namespace SourceFile

/-- The name of a file. -/
def name (f : SourceFile) : String := f.path.name

/-- The name of a file without its suffix. -/
def stem (f : SourceFile) : String := f.path.stem

/-- The suffix of a file, with its dot. -/
def suffix (f : SourceFile) : String := f.path.suffix

/-- The name of the directory that a file lies in. -/
def directoryName (f : SourceFile) : String := f.path.parent.name

/-- The snake_case name that a file should have, without suffix. -/
def canonicalName (f : SourceFile) : String := Naming.canonicalName f.path

/-- What a file of a given name is for when it is found under a target directory of a given name, and whether it is the compile
file of a wrapper. Suffixes of contracts count first, then endings of tests, then the target directory. -/
def categoryOf? (rules : Rules) (name suffix targetName : String) : Option (SourceCategory × Bool) :=
  if suffix ∈ rules.contractExtensions then some (.contract, false)
  else if rules.testSuffixes.any (endsIn name) then some (.test, false)
  else if targetName = rules.wrappersDir then some (.wrapper, endsIn name rules.compileSuffix)
  else if targetName = rules.scriptsDir then some (.script, false)
  else none

/-- The source file at a canonical path, when it is of any category. -/
def classify? (rules : Rules) (path location target : Path) : Option SourceFile :=
  (categoryOf? rules path.name path.suffix target.name).map fun (category, isCompileVariant) =>
    { path, location, category, isCompileVariant }

/-- Whether files of a name are looked at: the name has one of the endings and is no declaration file's. -/
def isRelevantName (rules : Rules) (name : String) : Bool :=
  !endsIn name rules.declarationSuffix && rules.allExtensions.any (endsIn name)

/-- The first target directory that a file lies in. Targets that start from the root hold no file of a project. -/
def targetOf? (targets : List Path) (location : Path) : Option Path :=
  targets.find? fun t => t.anchor = .relative ∧ t.parts.isPrefixOf location.parent.parts

/-- The source file that a canonical path in a project stands for, when it is one: it lies in a target directory and not in the
dependency cache. -/
def ofLocation? (rules : Rules) (targets : List Path) (path location : Path) : Option SourceFile :=
  if rules.dependencyCacheDir ∈ location.parts then none
  else (targetOf? targets location).bind fun target => classify? rules path location target

end SourceFile

end WorkspaceLint
