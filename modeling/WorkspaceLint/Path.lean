/-!
# Paths

A path as an anchor and a list of parts. Reading drops empty parts and single dots and keeps double dots; writing puts a slash
between parts, so a path that was read is written in its shortest form. Nothing here looks at a file system.
-/

namespace WorkspaceLint

/-- What a path starts from. -/
inductive Anchor where
  /-- A path that starts from a directory to be named. -/
  | relative
  /-- A path that starts from the root. -/
  | root
  /-- A path that starts with exactly two slashes. -/
  | doubleRoot
deriving DecidableEq

/-- A path: where it starts, and the names on the way. -/
structure Path where
  /-- What the path starts from. -/
  anchor : Anchor
  /-- The names on the way, outermost first. -/
  parts : List String
deriving DecidableEq

/-- How an anchor is written. -/
def Anchor.text : Anchor → String
  | .relative => ""
  | .root => "/"
  | .doubleRoot => "//"

/-- The anchor of a written path. -/
def Anchor.ofChars : List Char → Anchor
  | '/' :: '/' :: '/' :: _ => .root
  | '/' :: '/' :: _ => .doubleRoot
  | '/' :: _ => .root
  | _ => .relative

/-- The last dot of a name splits it into stem and suffix, unless the name starts or ends with it. The suffix keeps its dot. -/
def splitSuffix (name : List Char) : List Char × List Char :=
  let after := name.reverse.takeWhile (· ≠ '.')
  match name.reverse.dropWhile (· ≠ '.') with
  | '.' :: c :: before =>
    if after = [] then (name, []) else ((c :: before).reverse, '.' :: after.reverse)
  | _ => (name, [])

namespace Path

/-- The names in a written path: what stands between slashes, without empty names and single dots. -/
def partsOfChars (s : List Char) : List String :=
  ((s.splitOn '/').filter fun p => p ≠ [] ∧ p ≠ ['.']).map String.ofList

/-- Reading a path. -/
def ofString (s : String) : Path := ⟨Anchor.ofChars s.toList, partsOfChars s.toList⟩

/-- Writing a path. The relative path without names is a single dot. -/
def text (p : Path) : String :=
  if p.anchor = .relative ∧ p.parts = [] then "." else p.anchor.text ++ "/".intercalate p.parts

/-- A relative path of given names. -/
def ofParts (parts : List String) : Path := ⟨.relative, parts⟩

/-- A path from the root along given names. -/
def absolute (parts : List String) : Path := ⟨.root, parts⟩

/-- One path after another: an anchored second path stands for itself. -/
def join (p q : Path) : Path :=
  match q.anchor with
  | .relative => ⟨p.anchor, p.parts ++ q.parts⟩
  | _ => q

/-- The path of an entry of the directory at a path. -/
def child (p : Path) (name : String) : Path := ⟨p.anchor, p.parts ++ [name]⟩

/-- A path without its last name. -/
def parent (p : Path) : Path := ⟨p.anchor, p.parts.dropLast⟩

/-- The last name of a path, empty when there is none. -/
def name (p : Path) : String := p.parts.getLastD ""

/-- The last name without its suffix. -/
def stem (p : Path) : String := String.ofList (splitSuffix p.name.toList).1

/-- The suffix of the last name, with its dot. -/
def suffix (p : Path) : String := String.ofList (splitSuffix p.name.toList).2

/-- A path seen from another one that is a beginning of it. -/
def relativeTo? (p base : Path) : Option Path :=
  if p.anchor = base.anchor ∧ base.parts.isPrefixOf p.parts then
    some ⟨.relative, p.parts.drop base.parts.length⟩
  else none

/-- What paths are ordered by: the anchor as a name of its own, then the names. -/
def orderKey (p : Path) : List String :=
  match p.anchor with
  | .relative => p.parts
  | _ => p.anchor.text :: p.parts

/-- The order of paths by their names, each compared by code points. -/
def le (p q : Path) : Bool := p.orderKey.le q.orderKey

/-- Paths in ascending order. -/
def sort (ps : List Path) : List Path := ps.mergeSort le

end Path

/-- The location of a path under a root: the path seen from there, or the path itself when it lies elsewhere. -/
def relativeLocation (path root : Path) : String :=
  match path.relativeTo? root with
  | some r => r.text
  | none => path.text

end WorkspaceLint
