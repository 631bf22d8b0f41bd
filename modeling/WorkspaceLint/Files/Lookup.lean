import WorkspaceLint.Failure
import WorkspaceLint.Files.Node

/-!
# Looking up paths

Where a path leads, name by name from the root, with symbolic links followed on the way. At most forty links are followed, a
name has at most 255 bytes and a written path less than 4096. `exists?`, `isDir?` and `isFile?` take a path that leads nowhere
for absent and fail only when a name is too long.
-/

namespace WorkspaceLint.Files

/-- The most links that are followed on the way along one path. -/
def maxLinks : Nat := 40

/-- The most bytes of a name. -/
def maxNameBytes : Nat := 255

/-- The least number of bytes of a path that is too long. -/
def pathBytesLimit : Nat := 4096

/-- The names of a link target, the dot names among them. A slash at the end asks for a directory, as a dot does. -/
def targetNames (target : String) : List String :=
  let names := (target.toList.splitOn '/').filter (· ≠ [])
  (if target.toList.getLast? = some '/' then names ++ [['.']] else names).map String.ofList

/-- Whether a link target starts from the root. -/
def targetIsAbsolute (target : String) : Bool := target.toList.head? == some '/'

/-- A position and the node at it. -/
structure Found where
  /-- The names from the root on, none of them a link. -/
  position : List String
  /-- The node. -/
  node : Node

namespace FileSystem

/-- The names that lead on from a position, walked to the first link that has to be followed; `onLink` says where that leads,
given the position of the directory it is in, its target, and the names after it. -/
def walkNames (fs : FileSystem) (followLast : Bool) (onLink : List String → String → List String → Except Fault Found) :
    List String → List String → Except Fault Found
  | position, [] =>
    match fs.at? position with
    | some n => .ok ⟨position, n⟩
    | none => .error .notFound
  | position, name :: rest =>
    match fs.at? position with
    | some (.dir es) =>
      if name = "." then walkNames fs followLast onLink position rest
      else if name = ".." then walkNames fs followLast onLink position.dropLast rest
      else if maxNameBytes < name.utf8ByteSize then .error .nameTooLong
      else
        match es.lookup name with
        | none => .error .notFound
        | some (.link target) =>
          if rest = [] ∧ followLast = false then .ok ⟨position ++ [name], .link target⟩ else onLink position target rest
        | some _ => walkNames fs followLast onLink (position ++ [name]) rest
    | _ => .error .notDirectory

/-- Where names lead from a position when at most a number of links may be followed. -/
def walk (fs : FileSystem) (followLast : Bool) : Nat → List String → List String → Except Fault Found
  | 0 => fs.walkNames followLast fun _ _ _ => .error .tooManyLinks
  | links + 1 =>
    fs.walkNames followLast fun position target rest =>
      fs.walk followLast links (if targetIsAbsolute target then [] else position) (targetNames target ++ rest)

/-- Where a path leads. Relative paths start from the root. -/
def find? (fs : FileSystem) (path : Path) (followLast : Bool) : Except Fault Found :=
  if pathBytesLimit ≤ path.text.utf8ByteSize then .error .nameTooLong else fs.walk followLast maxLinks [] path.parts

/-- What a path leads to, when its links are followed. -/
def stat? (fs : FileSystem) (path : Path) : Except Fault Node := (fs.find? path true).map (·.node)

/-- Whether a path leads to a node of some kind. A path with a null character leads nowhere. -/
def leadsTo (fs : FileSystem) (kind : Node → Bool) (path : Path) : Except Failure Bool :=
  if path.text.toList.contains '\x00' then .ok false
  else
    match fs.stat? path with
    | .ok n => .ok (kind n)
    | .error fault => if fault.meansAbsent then .ok false else .error (.lookup ⟨fault, path⟩)

/-- Whether a path leads to anything. -/
def exists? (fs : FileSystem) (path : Path) : Except Failure Bool := fs.leadsTo (fun _ => true) path

/-- Whether a path leads to a directory. -/
def isDir? (fs : FileSystem) (path : Path) : Except Failure Bool := fs.leadsTo Node.isDir path

/-- Whether a path leads to a file. -/
def isFile? (fs : FileSystem) (path : Path) : Except Failure Bool := fs.leadsTo Node.isFile path

/-- The directory that a path leads to; a path that leads to none leads to an empty one. -/
def directoryAt (fs : FileSystem) (path : Path) : Node :=
  match fs.stat? path with
  | .ok (.dir es) => .dir es
  | _ => .dir []

end FileSystem

/-- The names in a list whose paths, seen from a directory, pass a test. -/
def namesBelow (test : Path → Except Failure Bool) (directory : Path) : List String → Except Failure (List String)
  | [] => .ok []
  | name :: rest => do
    let passes ← test (directory.join (Path.ofString name))
    let more ← namesBelow test directory rest
    return if passes then name :: more else more

end WorkspaceLint.Files
