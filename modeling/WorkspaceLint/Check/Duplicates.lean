import WorkspaceLint.Diagnostic
import WorkspaceLint.Log
import WorkspaceLint.Naming.Style
import WorkspaceLint.ProjectFiles
import WorkspaceLint.Text.Quoted

/-!
# Files of the same name

Contracts whose names differ in case, underscores and suffixes only. Every file of such a group gets a diagnostic that lists the
whole group; groups stand in the order of their keys, and files in the order of their locations.
-/

namespace WorkspaceLint.Check

open Files (FileSystem)

/-- Whether a file takes part in the comparison: it is not hidden and has a suffix. -/
def isComparable (path : Path) : Bool := !isHidden path.name && path.suffix != ""

/-- The key of a file and its location in a project. -/
def keyedLocation (project path : Path) : Except Failure (String × String) :=
  match path.relativeTo? project with
  | some location => .ok (Naming.duplicateKey path, location.text)
  | none => .error (.notBelow path project)

/-- Texts in ascending order of code points. -/
def sortTexts (texts : List String) : List String := texts.mergeSort fun s t => s ≤ t

/-- The diagnostics for a group of two or more locations under one key. -/
def duplicateDiagnostics (rules : Rules) (members : List String) : List Diagnostic :=
  members.map fun member => {
    kind := .namingMismatch
    location := member
    message := "'" ++ rules.contractsDir ++ "' 目录中存在重名文件: " ++ ", ".intercalate members ++
      "。忽略大小写、下划线和扩展名后文件名必须唯一。"
    namesLocation := true }

/-- The diagnostics for the locations under one key. -/
def duplicatesOfKey (rules : Rules) (keyed : List (String × String)) (key : String) : Logged (List Diagnostic) :=
  let members := sortTexts ((keyed.filter (·.1 = key)).map (·.2))
  if members.length < 2 then Logged.ok []
  else do
    Logged.log .debug ("重名文件组 '" ++ key ++ "': " ++ Text.quotedList members)
    return duplicateDiagnostics rules members

/-- The diagnostics for contracts of the same name. -/
def duplicateNames (fs : FileSystem) (rules : Rules) (project : Path) : Logged (List Diagnostic) := do
  let contracts := project.join (Path.ofString rules.contractsDir)
  if !(← Logged.ofExcept (fs.isDir? contracts)) then return []
  let files ← Logged.ofExcept (projectFiles fs rules contracts)
  let keyed ← Logged.ofExcept ((files.filter isComparable).mapM (keyedLocation project))
  Logged.collect (duplicatesOfKey rules keyed) (sortTexts (keyed.map (·.1)).eraseDups)

end WorkspaceLint.Check
