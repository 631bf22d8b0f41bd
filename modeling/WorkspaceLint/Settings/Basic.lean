import WorkspaceLint.DirList
import WorkspaceLint.Rules
import WorkspaceLint.Settings.Field

/-!
# Settings

What a user can set: the level from which events are logged, the directories whose names are checked, and the depth of
snapshots. Settings are made of named values; where a field has none it takes its default, and every field that does not take
its value is reported.
-/

namespace WorkspaceLint

/-- What a user can set. -/
structure Settings where
  /-- The name of the level from which events are logged. -/
  logLevel : String := "WARNING"
  /-- The directories whose names are checked, as one text. -/
  namingDirs : String := ",".intercalate characteristicDirs
  /-- The depth of snapshots. -/
  treeDepth : Nat := 2
deriving DecidableEq

namespace Settings

/-- The directories whose names are checked. -/
def targetDirs (s : Settings) : List String := parseDirList s.namingDirs

/-- The rules that settings ask for. -/
def rules (s : Settings) : Rules := { treeDepth := s.treeDepth }

/-- A field of settings. -/
inductive Field where
  /-- The level from which events are logged. -/
  | logLevel
  /-- The directories whose names are checked. -/
  | namingDirs
  /-- The depth of snapshots. -/
  | treeDepth
deriving DecidableEq

/-- The name of a field. -/
def Field.name : Field → String
  | .logLevel => "log_level"
  | .namingDirs => "naming_dirs"
  | .treeDepth => "tree_depth"

/-- A field that does not take its value. -/
structure FieldError where
  /-- The field. -/
  field : Field
  /-- Why it does not take the value. -/
  fault : FieldFault
deriving DecidableEq

/-- What a field is made of: its value when there is one, and its default otherwise. -/
def fieldOr {α : Type} (field : Field) (read : Value → Except FieldFault α) (default : α) :
    Option Value → Except FieldError α
  | none => .ok default
  | some v => (read v).mapError (⟨field, ·⟩)

/-- The fault of a field, when it has one. -/
def faultOf {α : Type} : Except FieldError α → List FieldError
  | .ok _ => []
  | .error e => [e]

/-- The settings that values for the fields make, or the fields that do not take theirs, in their order. -/
def ofFields (value? : Field → Option Value) : Except (List FieldError) Settings :=
  let logLevel := fieldOr .logLevel textOf ({} : Settings).logLevel (value? .logLevel)
  let namingDirs := fieldOr .namingDirs (fun v => (joinList v).bind textOf) ({} : Settings).namingDirs (value? .namingDirs)
  let treeDepth := fieldOr .treeDepth natOf ({} : Settings).treeDepth (value? .treeDepth)
  match logLevel, namingDirs, treeDepth with
  | .ok logLevel, .ok namingDirs, .ok treeDepth => .ok { logLevel, namingDirs, treeDepth }
  | _, _, _ => .error (faultOf logLevel ++ faultOf namingDirs ++ faultOf treeDepth)

end Settings

end WorkspaceLint
