import WorkspaceLint.Path
import WorkspaceLint.Text.Quoted

/-!
# What goes wrong with a path

The causes for which a path is not looked up or a file is not opened, with their numbers and wording.
-/

namespace WorkspaceLint.Files

/-- Why a path leads nowhere, or to nothing that can be opened. -/
inductive Fault where
  /-- A name on the way is not there. -/
  | notFound
  /-- A name on the way, not the last one, is a file. -/
  | notDirectory
  /-- The path leads to a directory where a file should be. -/
  | isDirectory
  /-- A name or the whole path is too long. -/
  | nameTooLong
  /-- Too many symbolic links are on the way. -/
  | tooManyLinks
deriving DecidableEq

/-- The number of a fault. -/
def Fault.number : Fault → Nat
  | .notFound => 2
  | .notDirectory => 20
  | .isDirectory => 21
  | .nameTooLong => 36
  | .tooManyLinks => 40

/-- The wording of a fault. -/
def Fault.wording : Fault → String
  | .notFound => "No such file or directory"
  | .notDirectory => "Not a directory"
  | .isDirectory => "Is a directory"
  | .nameTooLong => "File name too long"
  | .tooManyLinks => "Too many levels of symbolic links"

/-- Whether a fault means that nothing is there. A name that is too long is reported instead. -/
def Fault.meansAbsent : Fault → Bool
  | .nameTooLong => false
  | _ => true

/-- A fault and the path it was met at. -/
structure Error where
  /-- The fault. -/
  fault : Fault
  /-- The path that was looked up. -/
  path : Path
deriving DecidableEq

/-- The message for a fault at a path. -/
def Error.message (e : Error) : String :=
  "[Errno " ++ toString e.fault.number ++ "] " ++ e.fault.wording ++ ": " ++ Text.quoted e.path.text

end WorkspaceLint.Files
