import WorkspaceLint.Path

/-!
# Candidate directories

A directory that has a manifest or one of the directories by which a project is known, with what it was taken for.
-/

namespace WorkspaceLint

/-- What a candidate directory is taken for. -/
inductive Classification where
  /-- A project. -/
  | valid
  /-- Something that should be a project and is not whole. -/
  | brokenScaffold
  /-- No project at all. -/
  | ignorable
deriving DecidableEq

/-- The name of a classification. -/
def Classification.label : Classification → String
  | .valid => "VALID"
  | .brokenScaffold => "BROKEN_SCAFFOLD"
  | .ignorable => "IGNORABLE"

/-- A candidate directory. -/
structure Candidate where
  /-- The path of the directory. -/
  root : Path
  /-- Whether the directory has a manifest. -/
  hasManifest : Bool
  /-- Whether the directory has one of the directories by which a project is known. -/
  hasCharacteristicDirs : Bool
  /-- What the directory is taken for. -/
  classification : Classification
deriving DecidableEq

/-- Whether a candidate is a project. -/
def Candidate.isValid (c : Candidate) : Bool := c.classification = .valid

end WorkspaceLint
