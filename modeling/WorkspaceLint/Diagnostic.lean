/-!
# Diagnostics

What a check reports: its kind, the file or directory it is about, and a message. A diagnostic may say that its message already
names the place, and then reports do not add it.
-/

namespace WorkspaceLint

/-- The kind of a diagnostic. -/
inductive DiagnosticKind where
  /-- A project or workspace is not built as it should be, or a file cannot be read. -/
  | structureInvalid
  /-- A directory looks like a project without a manifest. -/
  | brokenScaffold
  /-- A name is not in the style of its kind, or not unique. -/
  | namingMismatch
  /-- A file that is referred to does not exist. -/
  | missingReferencedFile
deriving DecidableEq

namespace DiagnosticKind

/-- The name of a kind in reports for programs. -/
def label : DiagnosticKind → String
  | .structureInvalid => "STRUCTURE_INVALID"
  | .brokenScaffold => "BROKEN_SCAFFOLD"
  | .namingMismatch => "NAMING_MISMATCH"
  | .missingReferencedFile => "MISSING_REFERENCED_FILE"

/-- The kinds in the order in which reports group them. -/
def all : List DiagnosticKind := [.structureInvalid, .brokenScaffold, .namingMismatch, .missingReferencedFile]

/-- The kind of a name. -/
def ofLabel? (s : String) : Option DiagnosticKind := all.find? (·.label == s)

theorem mem_all (k : DiagnosticKind) : k ∈ all := by cases k <;> decide

theorem ofLabel?_label (k : DiagnosticKind) : ofLabel? k.label = some k := by cases k <;> decide

end DiagnosticKind

/-- What a check reports. -/
structure Diagnostic where
  /-- The kind. -/
  kind : DiagnosticKind
  /-- The file or directory it is about. -/
  location : String
  /-- What it says. -/
  message : String
  /-- Whether the message names the place. -/
  namesLocation : Bool := false
deriving DecidableEq

/-- A diagnostic at another place. -/
def Diagnostic.relocated (d : Diagnostic) (location : String) : Diagnostic := { d with location }

end WorkspaceLint
