import WorkspaceLint.Files.Walk
import WorkspaceLint.Rules

/-!
# The files of a project

All files below a directory, without those in hidden directories and in the dependency cache. A link to a directory is not
entered, and one that leads nowhere counts as a file.
-/

namespace WorkspaceLint

/-- The paths of the files of a directory on a walk. -/
def Files.Visit.filePaths (v : Visit) : List Path := v.files.map v.path.child

/-- The paths of the files below a directory. -/
def projectFiles (fs : Files.FileSystem) (rules : Rules) (root : Path) : Except Failure (List Path) :=
  (fs.walkFrom rules.enters root).map fun visits => visits.flatMap (·.filePaths)

end WorkspaceLint
