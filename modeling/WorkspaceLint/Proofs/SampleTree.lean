import WorkspaceLint.Files.Lookup
import WorkspaceLint.Proofs.Files.Positions

/-!
# A tree to try statements on

The smallest tree that holds a project: a manifest that declares the required dependency, the configuration file, the installed
module, and whatever else is put beside them.
-/

namespace WorkspaceLint.SampleTree

open Files (FileSystem Node)

/-- The octets of a text that holds characters of one octet only. -/
def octetsOf (s : String) : List UInt8 := s.toList.map fun c => c.toNat.toUInt8

/-- A manifest that declares the required dependency. -/
def manifest : List UInt8 := octetsOf "\x7b\"dependencies\": \x7b\"@ton-ai-core/blueprint\": \"1\"\x7d\x7d"

/-- The entries of a directory that is a project, with some more. -/
def project (more : List (String × Node)) : Node :=
  .dir ([("package.json", .file manifest), ("blueprint.config.ts", .file []),
    ("node_modules", .dir [("@ton-ai-core", .dir [("blueprint", .dir [])])])] ++ more)

/-- A file system with one project, in the directory `w`. -/
def withProject (more : List (String × Node)) : FileSystem where
  entries := [("w", project more)]

/-- The directory of the project is where its path leads, whatever else it holds. -/
theorem at?_project (more : List (String × Node)) : (withProject more).at? ["w"] = some (project more) := rfl

end WorkspaceLint.SampleTree
