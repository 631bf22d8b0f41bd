import WorkspaceLint.Files.Lookup
import WorkspaceLint.Text.Case

/-!
# Snapshots of directories

A picture of what lies below a directory, a line to an entry, down to some depth and without ignored names. `Shown` is what can
be seen, as data; `linesBelow` draws it. Directories stand before other entries, and names are in the order of their lower case.
Directories are entered through links too, so only the depth ends a snapshot.
-/

namespace WorkspaceLint.Snapshot

open Files (FileSystem)

/-- An entry of a directory as it is seen in a snapshot. -/
inductive Shown where
  /-- The name of the entry, whether it is or leads to a directory, and what is seen below it. -/
  | entry (name : String) (isDir : Bool) (below : List Shown)

/-- Whether an entry, given by its name and whether it is a directory, stands at or before another one. -/
def le (a b : String × Bool) : Bool :=
  if a.2 = b.2 then
    Text.lowered a.1 < Text.lowered b.1 || (Text.lowered a.1 == Text.lowered b.1 && a.1 ≤ b.1)
  else a.2

/-- The names in the directory at a path that are not ignored, with whether they are or lead to directories. -/
def visibleNames (fs : FileSystem) (ignored : List String) (path : Path) : Except Failure (List (String × Bool)) :=
  if path.text.toList.contains '\x00' then .error .nullCharacter
  else
    let names := ((fs.directoryAt path).entries.map (·.1)).filter (· ∉ ignored)
    (names.mapM fun name => (fs.isDir? (path.child name)).map fun isDir => (name, isDir)).map (·.mergeSort le)

/-- What is seen below the directory at a path, down to a depth. -/
def shownBelow (fs : FileSystem) (ignored : List String) : Nat → Path → Except Failure (List Shown)
  | 0, _ => .ok []
  | depth + 1, path => do
    let names ← visibleNames fs ignored path
    names.mapM fun (name, isDir) =>
      if isDir then (shownBelow fs ignored depth (path.child name)).map (.entry name true ·)
      else .ok (.entry name false [])

/-- What stands before the name of an entry. -/
def connector (isLast : Bool) : String := if isLast then "└── " else "├── "

/-- What stands before the lines below an entry. -/
def margin (isLast : Bool) : String := if isLast then "    " else "│   "

mutual

/-- The lines of an entry and what is seen below it, after a margin. -/
def Shown.lines (before : String) (isLast : Bool) : Shown → List String
  | .entry name isDir below =>
    (before ++ connector isLast ++ name ++ (if isDir then "/" else "")) :: linesBelow (before ++ margin isLast) below

/-- The lines of entries in a row, after a margin. -/
def linesBelow (before : String) : List Shown → List String
  | [] => []
  | s :: rest => s.lines before rest.isEmpty ++ linesBelow before rest

end

/-- The name that stands in the first line. -/
def title (path : Path) : String := (if path.name = "" then path.text else path.name) ++ "/"

/-- The lines of a snapshot of the directory at a path. -/
def lines (fs : FileSystem) (ignored : List String) (depth : Nat) (path : Path) : Except Failure (List String) :=
  (shownBelow fs ignored depth path).map fun shown => title path :: linesBelow "" shown

/-- A snapshot of the directory at a path. -/
def draw (fs : FileSystem) (ignored : List String) (depth : Nat) (path : Path) : Except Failure String :=
  (lines fs ignored depth path).map "\n".intercalate

end WorkspaceLint.Snapshot
