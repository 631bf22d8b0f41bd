import WorkspaceLint.Files.Lookup

/-!
# Walking trees

Two walks from a directory down. Both go through real directories only and never enter one through a link, so they end. The
first visits directories whose names it is told to keep, and tells entries that are or lead to directories from the others; it
passes over a directory that cannot be listed, because its path is too long. The second lists everything.
-/

namespace WorkspaceLint.Files

/-- A directory on a walk. -/
structure Visit where
  /-- The path of the directory. -/
  path : Path
  /-- The kept names of entries that are or lead to directories. -/
  dirs : List String
  /-- The names of the other entries. -/
  files : List String
deriving DecidableEq

namespace FileSystem

/-- Whether an entry of the directory at a path is or leads to a directory. -/
def leadsToDir (fs : FileSystem) (path : Path) (name : String) : Node → Bool
  | .dir _ => true
  | .file _ => false
  | .link _ =>
    match fs.stat? (path.child name) with
    | .ok n => n.isDir
    | .error _ => false

/-- The visit of a directory. -/
def visit (fs : FileSystem) (keep : String → Bool) (path : Path) (es : List (String × Node)) : Visit where
  path := path
  dirs := ((es.filter fun e => fs.leadsToDir path e.1 e.2).map (·.1)).filter keep
  files := (es.filter fun e => !fs.leadsToDir path e.1 e.2).map (·.1)

mutual

/-- The visits of a node at a path and below, each directory before what it holds. A directory whose path is too long cannot be
listed. -/
def visits (fs : FileSystem) (keep : String → Bool) (path : Path) : Node → List Visit
  | .dir es =>
    if pathBytesLimit ≤ path.text.utf8ByteSize then [] else fs.visit keep path es :: fs.visitsBelow keep path es
  | _ => []

/-- The visits of the kept entries of the directory at a path. -/
def visitsBelow (fs : FileSystem) (keep : String → Bool) (path : Path) : List (String × Node) → List Visit
  | [] => []
  | (name, n) :: rest =>
    (if keep name then fs.visits keep (path.child name) n else []) ++ fs.visitsBelow keep path rest

end

/-- The walk from the directory that a path leads to. A path that leads to none is walked without a visit. -/
def walkFrom (fs : FileSystem) (keep : String → Bool) (path : Path) : Except Failure (List Visit) :=
  if path.text.toList.contains '\x00' then .error .nullCharacter
  else
    match fs.stat? path with
    | .ok n => .ok (fs.visits keep path n)
    | .error _ => .ok []

end FileSystem

mutual

/-- The paths of everything below a node at a path: the entries of a directory before what its directories hold. -/
def Node.descendants (path : Path) : Node → List Path
  | .dir es => es.map (fun e => path.child e.1) ++ Node.entriesDescendants path es
  | _ => []

/-- The paths of everything below entries of the directory at a path. -/
def Node.entriesDescendants (path : Path) : List (String × Node) → List Path
  | [] => []
  | (name, n) :: rest => n.descendants (path.child name) ++ Node.entriesDescendants path rest

end

/-- The paths of everything below the directory that a path leads to. -/
def FileSystem.descendants (fs : FileSystem) (path : Path) : List Path := (fs.directoryAt path).descendants path

end WorkspaceLint.Files
