/-!
# File trees

What a file system holds, as data: files with their octets, symbolic links with their targets, and directories whose entries
stand in the order in which they are listed. Nothing else of a file system matters here: no owners, modes or times, so every file
and directory may be read. Names and targets are texts: names that are no UTF-8 are left out, and so are devices, sockets and pipes.
-/

namespace WorkspaceLint.Files

/-- A file, a symbolic link or a directory. -/
inductive Node where
  /-- A file with its octets. -/
  | file (content : List UInt8)
  /-- A symbolic link with its target as it was written. -/
  | link (target : String)
  /-- A directory with its entries in listing order. -/
  | dir (entries : List (String × Node))

namespace Node

/-- The entries of a directory; other nodes have none. -/
def entries : Node → List (String × Node)
  | .dir es => es
  | _ => []

/-- Whether a node is a directory. -/
def isDir : Node → Bool
  | .dir _ => true
  | _ => false

/-- Whether a node is a file. -/
def isFile : Node → Bool
  | .file _ => true
  | _ => false

/-- The target of a symbolic link. -/
def target? : Node → Option String
  | .link t => some t
  | _ => none

/-- The entry of a directory under a name. -/
def child? (n : Node) (name : String) : Option Node := n.entries.lookup name

/-- The node that names lead to through directories, without following links. -/
def at? (n : Node) : List String → Option Node
  | [] => some n
  | name :: rest => (n.child? name).bind fun c => c.at? rest

mutual

/-- How many symbolic links a tree holds. -/
def linkCount : Node → Nat
  | .file _ => 0
  | .link _ => 1
  | .dir es => entriesLinkCount es

/-- How many symbolic links entries hold. -/
def entriesLinkCount : List (String × Node) → Nat
  | [] => 0
  | (_, n) :: rest => n.linkCount + entriesLinkCount rest

end

end Node

/-- A name that a directory may hold: not empty, neither of the dot names, without slashes and null characters, and of at most
255 bytes. -/
def IsEntryName (name : String) : Prop :=
  name ≠ "" ∧ name ≠ "." ∧ name ≠ ".." ∧ '/' ∉ name.toList ∧ '\x00' ∉ name.toList ∧ name.utf8ByteSize ≤ 255

mutual

/-- A tree that a file system can hold: the names of each directory are entry names and differ, and the target of a link is
neither empty nor holds a null character. -/
def Node.WellFormed : Node → Prop
  | .file _ => True
  | .link t => t ≠ "" ∧ '\x00' ∉ t.toList
  | .dir es => (es.map (·.1)).Nodup ∧ Node.EntriesWellFormed es

/-- Entries whose names are entry names and whose nodes are well formed. -/
def Node.EntriesWellFormed : List (String × Node) → Prop
  | [] => True
  | (name, n) :: rest => IsEntryName name ∧ n.WellFormed ∧ Node.EntriesWellFormed rest

end

/-- A file system: the entries of its root directory. -/
structure FileSystem where
  /-- The entries of the root directory. -/
  entries : List (String × Node)

/-- The root directory of a file system. -/
def FileSystem.root (fs : FileSystem) : Node := .dir fs.entries

/-- A file system whose tree is well formed. -/
def FileSystem.WellFormed (fs : FileSystem) : Prop := fs.root.WellFormed

/-- The node at a position: the names from the root on, without following links. -/
def FileSystem.at? (fs : FileSystem) (position : List String) : Option Node := fs.root.at? position

end WorkspaceLint.Files
