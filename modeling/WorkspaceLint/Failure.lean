import WorkspaceLint.Files.Error
import WorkspaceLint.Number.Limit

/-!
# What ends a run

Causes that no check turns into a diagnostic of its own. Inside a project they end the checks of that project; elsewhere they
end the run.
-/

namespace WorkspaceLint

/-- A cause that ends a run, or the checks of a project. -/
inductive Failure where
  /-- A path could not be looked up. -/
  | lookup (e : Files.Error)
  /-- A path holds a null character. -/
  | nullCharacter
  /-- Symbolic links lead in a circle. -/
  | linkLoop (path : Path)
  /-- An integer in a data file has too many digits. -/
  | integerTooLong (digits : Nat)
  /-- A file lies outside the directory it should be seen from. -/
  | notBelow (path base : Path)
deriving DecidableEq

/-- The message for a cause. -/
def Failure.message : Failure → String
  | .lookup e => e.message
  | .nullCharacter => "embedded null byte"
  | .linkLoop path => "Symlink loop from " ++ Text.quoted path.text
  | .integerTooLong digits => Number.tooLongMessage digits
  | .notBelow path base =>
    Text.quoted path.text ++ " is not in the subpath of " ++ Text.quoted base.text ++
      " OR one path is relative and the other is absolute."

end WorkspaceLint
