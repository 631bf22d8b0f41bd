import WorkspaceLint.Files.Canonical

/-!
# Changing trees

Putting nodes into a file system and taking them out, by position. Directories on the way are made when they are missing; an
entry that is new is listed last.
-/

namespace WorkspaceLint.Files

/-- Entries with a node under a name: in its place when the name is there, and last otherwise. -/
def putEntry (name : String) (n : Node) : List (String × Node) → List (String × Node)
  | [] => [(name, n)]
  | (k, m) :: rest => if k = name then (k, n) :: rest else (k, m) :: putEntry name n rest

/-- A directory with a node at a position below it. A file or link on the way gives way to a directory. -/
def Node.put (new : Node) : List String → Node → Node
  | [], _ => new
  | name :: rest, n => .dir (putEntry name (new.put rest ((n.child? name).getD (.dir []))) n.entries)

/-- A directory without the node at a position below it. -/
def Node.remove : List String → Node → Node
  | [], n => n
  | [name], n => .dir (n.entries.filter (·.1 ≠ name))
  | name :: next :: rest, n =>
    match n.child? name with
    | some c => .dir (putEntry name (Node.remove (next :: rest) c) n.entries)
    | none => n

namespace FileSystem

/-- A file system with a node at a position. -/
def putAt (fs : FileSystem) (position : List String) (new : Node) : FileSystem := ⟨(new.put position fs.root).entries⟩

/-- A file system with a file where a path leads, links followed. -/
def writeFile (fs : FileSystem) (path : Path) (content : List UInt8) : FileSystem :=
  fs.putAt (fs.canonicalPosition path) (.file content)

/-- A file system with a directory where a path leads, links followed. One that is there stays. -/
def makeDir (fs : FileSystem) (path : Path) : FileSystem :=
  let position := fs.canonicalPosition path
  match fs.at? position with
  | some (.dir _) => fs
  | _ => fs.putAt position (.dir [])

/-- The position of an entry: the directory it is in is resolved, its own name is not. -/
def entryPosition (fs : FileSystem) (path : Path) : List String := fs.canonicalPosition path.parent ++ [path.name]

/-- A file system with a symbolic link at a path. -/
def makeLink (fs : FileSystem) (path : Path) (target : String) : FileSystem :=
  fs.putAt (fs.entryPosition path) (.link target)

/-- A file system without the entry at a path. -/
def remove (fs : FileSystem) (path : Path) : FileSystem := ⟨(Node.remove (fs.entryPosition path) fs.root).entries⟩

end FileSystem

end WorkspaceLint.Files
