import WorkspaceLint.Files.Canonical
import WorkspaceLint.Files.Walk
import WorkspaceLint.Log
import WorkspaceLint.SourceFile

/-!
# Scanning a project for source files

Every target directory is walked, and what is found is known by its canonical path, so a file that several paths lead to is
listed once. What a file is taken for hangs on its canonical path alone, and the list is in the order of locations; so neither
the order of the walk nor a repeated target shows in the result.
-/

namespace WorkspaceLint

open Files (FileSystem)

namespace SourceFile

/-- The source file that a path of a walk leads to, when it leads to one in the project. -/
def ofCandidate (fs : FileSystem) (rules : Rules) (root : Path) (targets : List Path) (candidate : Path) :
    Logged (List SourceFile) := do
  if !(← Logged.ofExcept (fs.isFile? candidate)) then return []
  if !isRelevantName rules candidate.name then return []
  let path ← Logged.ofExcept (fs.resolve candidate)
  match path.relativeTo? root with
  | some location => return (ofLocation? rules targets path location).toList
  | none =>
    Logged.log .debug ("跳过项目外的文件: " ++ candidate.text)
    return []

/-- The source files that the walk of a target directory meets. -/
def ofTarget (fs : FileSystem) (rules : Rules) (root : Path) (targets : List Path) (target : Path) :
    Logged (List SourceFile) := do
  let base := root.join target
  if !(← Logged.ofExcept (fs.isDir? base)) then return []
  Logged.collect (ofCandidate fs rules root targets) (fs.descendants base)

/-- Source files in the order of their locations. -/
def sort (files : List SourceFile) : List SourceFile := files.mergeSort fun f g => f.location.text ≤ g.location.text

/-- The source files below the target directories of a project, each once, in the order of their locations. -/
def scan (fs : FileSystem) (rules : Rules) (project : Path) (targetDirs : List String) : Logged (List SourceFile) := do
  let root ← Logged.ofExcept (fs.resolve project)
  let targets := targetDirs.map Path.ofString
  let found ← Logged.collect (ofTarget fs rules root targets) targets
  let files := sort found.eraseDups
  Logged.log .debug (root.text ++ ": 分类文件 " ++ toString files.length ++ " 个")
  return files

end SourceFile

end WorkspaceLint
