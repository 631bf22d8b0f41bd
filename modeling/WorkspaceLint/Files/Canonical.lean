import WorkspaceLint.Files.Lookup

/-!
# Canonical paths

The path of a node without links and dot names on the way. Names that are not there stay as they are, and a double dot takes
back the name before it. Links that lead in a circle leave the rest of the path as it is written; where the rest of a link target
then starts with a slash of its own it stands for the whole path. When the path still meets a circle, `resolve` fails.
-/

namespace WorkspaceLint.Files

/-- Names with each double dot taking back the name before it. -/
def collapseNames (names : List String) : List String :=
  names.foldl (fun acc name => if name = "." then acc else if name = ".." then acc.dropLast else acc ++ [name]) []

/-- What is written after some names of a link target and the slash that ends the last of them. -/
def afterNames : Nat → List Char → List Char
  | 0, s => s
  | n + 1, s => afterNames n (((s.dropWhile (· = '/')).dropWhile (· ≠ '/')).drop 1)

/-- The names that the rest of a link target stands for after names that were not resolved: all of them, or the rest alone when it
starts with a slash. -/
def unresolvedNames (target : String) (names rest : List String) : List String :=
  let written := afterNames ((targetNames target).length - rest.length) target.toList
  if written.head? = some '/' then rest else names ++ rest

namespace FileSystem

/-- The target of the link at a position. -/
def linkAt? (fs : FileSystem) (position : List String) : Option String := (fs.at? position).bind Node.target?

/-- The position that names lead to from a position; `onLink` says where a link leads, given the position of its directory, its
name and its target. An error holds names that were not resolved, and the names after them. -/
def canonicalNames (fs : FileSystem) (onLink : List String → String → String → Except (List String) (List String)) :
    List String → List String → Except (List String × List String) (List String)
  | position, [] => .ok position
  | position, name :: rest =>
    if name = "." then canonicalNames fs onLink position rest
    else if name = ".." then canonicalNames fs onLink position.dropLast rest
    else
      match fs.linkAt? (position ++ [name]) with
      | none => canonicalNames fs onLink (position ++ [name]) rest
      | some target =>
        match onLink position name target with
        | .ok position' => canonicalNames fs onLink position' rest
        | .error names => .error (names, rest)

/-- The position that names lead to, while some links are being followed. The bound is on how many of them there may be. -/
def canonicalFrom (fs : FileSystem) : Nat → List (List String) → List String → List String →
    Except (List String × List String) (List String)
  | 0, _ => fs.canonicalNames fun position name _ => .error (position ++ [name])
  | bound + 1, pending =>
    fs.canonicalNames fun position name target =>
      let here := position ++ [name]
      if here ∈ pending then .error here
      else
        (canonicalFrom fs bound (here :: pending) (if targetIsAbsolute target then [] else position)
          (targetNames target)).mapError fun (names, rest) => unresolvedNames target names rest

/-- The names of a path from the root on, without links and dot names as far as they can be resolved. -/
def canonicalPosition (fs : FileSystem) (path : Path) : List String :=
  match fs.canonicalFrom (fs.root.linkCount + 1) [] [] path.parts with
  | .ok position => position
  | .error (names, rest) => collapseNames (names ++ rest)

/-- The canonical path of a path. -/
def resolve (fs : FileSystem) (path : Path) : Except Failure Path :=
  if path.text.toList.contains '\x00' then .error .nullCharacter
  else
    let found := Path.absolute (fs.canonicalPosition path)
    match fs.stat? found with
    | .error .tooManyLinks => .error (.linkLoop found)
    | _ => .ok found

end FileSystem

end WorkspaceLint.Files
