import WorkspaceLint.Diagnostic
import WorkspaceLint.Log
import WorkspaceLint.Rules
import WorkspaceLint.Snapshot
import WorkspaceLint.Text.Quoted

/-!
# What lies beside a workspace

The directory above the one that is scanned, when it looks like the root of a development environment, may not hold directories
of a project. At most one diagnostic is given; it names the directories that were found, and shows a snapshot.
-/

namespace WorkspaceLint.Check

open Files (FileSystem)

/-- The diagnostic for directories of a project in the root of a development environment. -/
def surroundingsDiagnostic (parent : Path) (found : List String) (snapshot : String) : Diagnostic where
  kind := .structureInvalid
  location := parent.text
  message :=
    "上级目录 '" ++ parent.text ++ "' 中发现禁止的目录: " ++
      ", ".intercalate (found.map fun name => "'" ++ name ++ "'") ++
      "。请为每个合约创建独立的 Blueprint 项目，并把这些目录放到项目内部。\n目录结构:\n" ++ snapshot

/-- The diagnostics for the directory above a path. -/
def surroundings (fs : FileSystem) (rules : Rules) (path : Path) : Logged (List Diagnostic) := do
  let parent := path.parent
  if parent = path then return []
  let markers ← Logged.ofExcept (Files.namesBelow fs.exists? parent rules.markerItems)
  if markers = [] then return []
  let found ← Logged.ofExcept (Files.namesBelow fs.isDir? parent rules.forbiddenDirs)
  if found = [] then return []
  Logged.log .debug ("上级目录 " ++ parent.text ++ " 含标记 " ++ Text.quotedList markers ++ "，发现禁止目录 " ++
    Text.quotedList found)
  let snapshot ← Logged.ofExcept (Snapshot.draw fs rules.treeNoise rules.treeDepth parent)
  return [surroundingsDiagnostic parent found snapshot]

end WorkspaceLint.Check
