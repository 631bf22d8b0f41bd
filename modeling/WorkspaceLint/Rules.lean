/-!
# Rules

The conventions of a project, as data: names of directories and files, suffixes of source files, what a manifest has to declare,
and what may not lie beside a workspace. Every check takes them as an argument.
-/

namespace WorkspaceLint

/-- The directories by which a project is known. -/
def characteristicDirs : List String := ["contracts", "wrappers", "scripts", "tests"]

/-- The conventions of a project. -/
structure Rules where
  /-- The name of a project's manifest. -/
  manifestName : String := "package.json"
  /-- The directories by which a project is known. -/
  characteristicDirs : List String := WorkspaceLint.characteristicDirs
  /-- The directory that installed dependencies lie in. -/
  dependencyCacheDir : String := "node_modules"
  /-- The suffixes of contract sources. -/
  contractExtensions : List String := [".tact", ".fc", ".func"]
  /-- The ending of other sources. -/
  sourceExtension : String := ".ts"
  /-- The endings of tests. -/
  testSuffixes : List String := [".spec.ts", ".test.ts"]
  /-- The ending of declaration files, which are not looked at. -/
  declarationSuffix : String := ".d.ts"
  /-- The ending of compile files. -/
  compileSuffix : String := ".compile.ts"
  /-- The directory of contracts. -/
  contractsDir : String := "contracts"
  /-- The directory of wrappers. -/
  wrappersDir : String := "wrappers"
  /-- The directory of scripts. -/
  scriptsDir : String := "scripts"
  /-- The dependency that a manifest has to declare. -/
  requiredDependency : String := "@ton-ai-core/blueprint"
  /-- The sections of a manifest in which dependencies are declared. -/
  dependencySections : List String := ["dependencies", "devDependencies"]
  /-- The configuration file that a project has to have. -/
  requiredConfig : String := "blueprint.config.ts"
  /-- The path of the module that has to be installed, by names. -/
  requiredModulePath : List String := ["node_modules", "@ton-ai-core", "blueprint"]
  /-- The command that sets up a project. -/
  scaffoldFixCommand : String := "npm create ton@latest"
  /-- The command that installs dependencies. -/
  installCommand : String := "npm install"
  /-- The name of the build configuration. -/
  buildConfigName : String := "tact.config.json"
  /-- Entries by which the root of a development environment is known. -/
  markerItems : List String :=
    [".cursor", ".knowledge", ".vscode", "package.json", ".windsurf", ".cursorrules", ".windsurfrules", "tsconfig.json"]
  /-- Directories that may not lie in such a root. -/
  forbiddenDirs : List String :=
    ["contracts", "contract", "wrappers", "wrapper", "scripts", "script", "tests", "test"]
  /-- Names that are left out of a snapshot. -/
  treeNoise : List String :=
    ["node_modules", ".git", "dist", "build", "coverage", "__pycache__", ".idea", ".DS_Store"]
  /-- How many levels a snapshot shows. -/
  treeDepth : Nat := 2
deriving DecidableEq

/-- The endings of all files that are classified. -/
def Rules.allExtensions (r : Rules) : List String := r.contractExtensions ++ r.sourceExtension :: r.testSuffixes

/-- Whether a name ends in a text. -/
def endsIn (name ending : String) : Bool := ending.toList.isSuffixOf name.toList

/-- Whether a name starts with a dot. -/
def isHidden (name : String) : Bool := name.toList.head? == some '.'

/-- Whether a walk through a project enters directories of a name. -/
def Rules.enters (r : Rules) (name : String) : Bool := name != r.dependencyCacheDir && !isHidden name

end WorkspaceLint
