import WorkspaceLint.Yaml.Scan
import WorkspaceLint.Yaml.Tag

/-!
# Nodes

The tree that a document describes: scalars, lists and maps with their tags. Names for nodes are replaced by the nodes; a node
that lies inside itself is no tree and is left out. Maps that are merged into a map stand before its own entries.
-/

namespace WorkspaceLint.Yaml

/-- A node of a document. -/
inductive Node where
  /-- A scalar. -/
  | scalar (tag : Tag) (text : String)
  /-- A list. -/
  | list (tag : Tag) (items : List Node)
  /-- A map. -/
  | map (tag : Tag) (entries : List (Node × Node))

namespace Node

/-- The tag of a node. -/
def tag : Node → Tag
  | .scalar t _ => t
  | .list t _ => t
  | .map t _ => t

/-- The node that stands where nothing is written. -/
def empty : Node := .scalar .null ""

/-- The entries of a map that is to be merged. -/
def mergedEntries : Node → Except Error (List (Node × Node))
  | .map _ entries => .ok entries
  | _ => .error .malformed

/-- The entries that the value of a merge key stands for: those of a map, or of several maps, the last of them first. -/
def entriesToMerge : Node → Except Error (List (Node × Node))
  | .list _ items => (items.reverse.mapM mergedEntries).map List.flatten
  | n => n.mergedEntries

/-- Whether an entry is under a merge key. -/
def isMerge (entry : Node × Node) : Bool := entry.1.tag = .merge

/-- A map of entries as they are written, merged ones put first. -/
def ofEntries (tag : Tag) (entries : List (Node × Node)) : Except Error Node := do
  let merged ← (entries.filter isMerge).mapM fun (entry : Node × Node) => entriesToMerge entry.2
  return .map tag (merged.flatten ++ entries.filter (!isMerge ·))

end Node

/-- Where a parse stands. -/
structure Parse where
  /-- The tokens that are left. -/
  tokens : List Token
  /-- The nodes that have names; one that is not complete has none yet. -/
  named : List (String × Option Node)
  /-- What the handles of tags mean. -/
  handles : List (String × String)

namespace Parse

/-- What handles mean when no directive says otherwise. -/
def defaultHandles : List (String × String) := [("!", "!"), ("!!", tagSpace)]

/-- A parse with other tokens left. -/
def withTokens (p : Parse) (tokens : List Token) : Parse := { p with tokens }

/-- A node that has a name from now on. -/
def name (p : Parse) (anchor : Option String) (n : Option Node) : Parse :=
  match anchor with
  | some a => { p with named := (a, n) :: p.named }
  | none => p

/-- The address that a tag stands for. A single exclamation mark is no address; it asks for a look at the form of the node. -/
def addressOf (p : Parse) (written : WrittenTag) : Except Error String :=
  match written.handle with
  | none => .ok written.suffix
  | some handle =>
    match p.handles.lookup handle with
    | some meaning => .ok (meaning ++ written.suffix)
    | none => .error .malformed

/-- What stands before a node. -/
structure Properties where
  /-- The name for the node. -/
  anchor : Option String
  /-- The address of its tag. -/
  address : Option String

/-- Whether a node has neither name nor tag. -/
def Properties.isEmpty (q : Properties) : Bool := q.anchor.isNone && q.address.isNone

/-- Whether the form of a node says what it is. -/
def Properties.isUntagged (q : Properties) : Bool := q.address.isNone || q.address == some "!"

/-- The tag of a node, given the one it has when its form says what it is. -/
def Properties.tag (q : Properties) (byForm : Tag) : Tag :=
  if q.isUntagged then byForm else Tag.ofAddress (q.address.getD "")

/-- The tag of a scalar. A scalar that is not plain and has no tag is a text. -/
def Properties.scalarTag (q : Properties) (isPlain : Bool) (text : String) : Tag :=
  if q.address.isNone && !isPlain then .text else q.tag (Tag.ofPlain text.toList)

/-- The name and tag, in either order, that tokens start with, and what is left. A name is given once only. -/
def properties (p : Parse) : Except Error (Properties × Parse) := do
  let (anchor, written, tokens) := match p.tokens with
    | .anchor a :: .tag t :: rest => (some a, some t, rest)
    | .tag t :: .anchor a :: rest => (some a, some t, rest)
    | .anchor a :: rest => (some a, none, rest)
    | .tag t :: rest => (none, some t, rest)
    | rest => (none, none, rest)
  let address ← match written with
    | some t => (p.addressOf t).map some
    | none => .ok none
  if anchor.any fun a => (p.named.lookup a).isSome then throw .malformed
  return (⟨anchor, address⟩, p.withTokens tokens)

/-- Whether the next token is one of some. -/
def nextIs (p : Parse) (ts : List Token) : Bool := p.tokens.head?.any ts.contains

/-- The tokens that may stand where a key or value by indentation is left out. -/
def blockGap : List Token := [.key, .value, .blockEnd]

mutual

/-- The node that tokens start with: lists and maps by indentation are allowed when `inBlock` says so, and a list that is not
indented deeper than its key when `afterKey` does. The bound is on the depth of calls. -/
def node (inBlock afterKey : Bool) : Nat → Parse → Except Error (Node × Parse)
  | 0, _ => .error .malformed
  | bound + 1, p =>
    match p.tokens with
    | .alias a :: rest =>
      match p.named.lookup a with
      | some (some n) => .ok (n, p.withTokens rest)
      | some none => .error .insideItself
      | none => .error .malformed
    | _ => do
      let (q, p) ← p.properties
      let open_ := p.name q.anchor none
      match p.tokens with
      | .scalar isPlain text :: rest =>
        let n := Node.scalar (q.scalarTag isPlain text) text
        return (n, (p.withTokens rest).name q.anchor n)
      | .listStart :: rest => do
        let (items, p) ← flowItems true bound (open_.withTokens rest)
        let n := Node.list (q.tag .list) items
        return (n, p.name q.anchor n)
      | .mapStart :: rest => do
        let (entries, p) ← flowEntries true bound (open_.withTokens rest)
        let n ← Node.ofEntries (q.tag .map) entries
        return (n, p.name q.anchor n)
      | .item :: rest =>
        if afterKey then do
          let (items, p) ← itemsAfterKey bound (open_.withTokens (.item :: rest))
          let n := Node.list (q.tag .list) items
          return (n, p.name q.anchor n)
        else absent q p
      | .blockListStart :: rest =>
        if inBlock then do
          let (items, p) ← blockItems bound (open_.withTokens rest)
          let n := Node.list (q.tag .list) items
          return (n, p.name q.anchor n)
        else absent q p
      | .blockMapStart :: rest =>
        if inBlock then do
          let (entries, p) ← blockEntries bound (open_.withTokens rest)
          let n ← Node.ofEntries (q.tag .map) entries
          return (n, p.name q.anchor n)
        else absent q p
      | _ => absent q p
where
  /-- What a name or tag without a node after it stands for; without either a node is missing. -/
  absent (q : Properties) (p : Parse) : Except Error (Node × Parse) :=
    if q.isEmpty then .error .malformed
    else
      let n := Node.scalar (q.tag .null) ""
      .ok (n, p.name q.anchor n)

/-- A node by indentation, or the empty one when the next token is one of some. -/
def blockNodeUnless (ts : List Token) (afterKey : Bool) : Nat → Parse → Except Error (Node × Parse)
  | 0, _ => .error .malformed
  | bound + 1, p => if p.nextIs ts then .ok (.empty, p) else node true afterKey bound p

/-- A node between brackets, or the empty one when the next token is one of some. -/
def flowNodeUnless (ts : List Token) : Nat → Parse → Except Error (Node × Parse)
  | 0, _ => .error .malformed
  | bound + 1, p => if p.nextIs ts then .ok (.empty, p) else node false false bound p

/-- The items of a list by indentation. -/
def blockItems : Nat → Parse → Except Error (List Node × Parse)
  | 0, _ => .error .malformed
  | bound + 1, p =>
    match p.tokens with
    | .item :: rest => do
      let (n, p) ← blockNodeUnless [.item, .blockEnd] false bound (p.withTokens rest)
      let (more, p) ← blockItems bound p
      return (n :: more, p)
    | .blockEnd :: rest => .ok ([], p.withTokens rest)
    | _ => .error .malformed

/-- The items of a list that is not indented deeper than its key. -/
def itemsAfterKey : Nat → Parse → Except Error (List Node × Parse)
  | 0, _ => .error .malformed
  | bound + 1, p =>
    match p.tokens with
    | .item :: rest => do
      let (n, p) ← blockNodeUnless (.item :: blockGap) false bound (p.withTokens rest)
      let (more, p) ← itemsAfterKey bound p
      return (n :: more, p)
    | _ => .ok ([], p)

/-- The entries of a map by indentation. -/
def blockEntries : Nat → Parse → Except Error (List (Node × Node) × Parse)
  | 0, _ => .error .malformed
  | bound + 1, p =>
    match p.tokens with
    | .key :: rest => do
      let (key, p) ← blockNodeUnless blockGap true bound (p.withTokens rest)
      let (item, p) ← match p.tokens with
        | .value :: rest => blockNodeUnless blockGap true bound (p.withTokens rest)
        | _ => .ok (.empty, p)
      let (more, p) ← blockEntries bound p
      return ((key, item) :: more, p)
    | .blockEnd :: rest => .ok ([], p.withTokens rest)
    | _ => .error .malformed

/-- The key and value of an entry between brackets that end with a token. -/
def flowEntry (closing : Token) : Nat → Parse → Except Error ((Node × Node) × Parse)
  | 0, _ => .error .malformed
  | bound + 1, p => do
    let (key, p) ← flowNodeUnless [.value, .comma, closing] bound p
    match p.tokens with
    | .value :: rest => do
      let (item, p) ← flowNodeUnless [.comma, closing] bound (p.withTokens rest)
      return ((key, item), p)
    | _ => return ((key, .empty), p)

/-- The items of a list between brackets. A key makes an item a map of one entry. -/
def flowItems (isFirst : Bool) : Nat → Parse → Except Error (List Node × Parse)
  | 0, _ => .error .malformed
  | bound + 1, p =>
    match p.tokens with
    | .listEnd :: rest => .ok ([], p.withTokens rest)
    | ts => do
      let ts ← match isFirst, ts with
        | true, ts => .ok ts
        | false, .comma :: ts => .ok ts
        | false, _ => .error .malformed
      match ts with
      | .listEnd :: rest => return ([], p.withTokens rest)
      | .key :: rest => do
        let (entry, p) ← flowEntry .listEnd bound (p.withTokens rest)
        let n ← Node.ofEntries .map [entry]
        let (more, p) ← flowItems false bound p
        return (n :: more, p)
      | ts => do
        let (n, p) ← node false false bound (p.withTokens ts)
        let (more, p) ← flowItems false bound p
        return (n :: more, p)

/-- The entries of a map between braces. An item without a key mark is a key without a value. -/
def flowEntries (isFirst : Bool) : Nat → Parse → Except Error (List (Node × Node) × Parse)
  | 0, _ => .error .malformed
  | bound + 1, p =>
    match p.tokens with
    | .mapEnd :: rest => .ok ([], p.withTokens rest)
    | ts => do
      let ts ← match isFirst, ts with
        | true, ts => .ok ts
        | false, .comma :: ts => .ok ts
        | false, _ => .error .malformed
      match ts with
      | .mapEnd :: rest => return ([], p.withTokens rest)
      | .key :: rest => do
        let (entry, p) ← flowEntry .mapEnd bound (p.withTokens rest)
        let (more, p) ← flowEntries false bound p
        return (entry :: more, p)
      | ts => do
        let (key, p) ← node false false bound (p.withTokens ts)
        let (more, p) ← flowEntries false bound p
        return ((key, .empty) :: more, p)

end

/-- The node that tokens start with. -/
def rootNode (p : Parse) : Except Error (Node × Parse) := node true false (4 * p.tokens.length + 4) p

/-- The directives that tokens start with: one version at most, of the first major number, and each handle once. -/
def directives (sawVersion : Bool) (handles : List (String × String)) :
    List Token → Except Error (List (String × String) × List Token)
  | .versionDirective major :: rest =>
    if sawVersion ∨ major ≠ 1 then .error .malformed else directives true handles rest
  | .tagDirective handle meaning :: rest =>
    if (handles.lookup handle).isSome then .error .malformed
    else directives sawVersion ((handle, meaning) :: handles) rest
  | .otherDirective :: rest => directives sawVersion handles rest
  | rest => .ok (handles, rest)

/-- Whether nothing but marks that end a document is left. -/
def isOver : List Token → Bool
  | .documentEnd :: rest => isOver rest
  | [.streamEnd] => true
  | _ => false

/-- A token that ends an explicit document before it has a node. -/
def endsDocument : Token → Bool
  | .versionDirective _ | .tagDirective _ _ | .otherDirective | .documentStart | .documentEnd | .streamEnd => true
  | _ => false

/-- The document after its directives and its start mark, and what is left. -/
def explicitDocument (tokens : List Token) : Except Error (Node × Parse) := do
  let (handles, rest) ← directives false [] tokens
  match rest with
  | .documentStart :: rest =>
    let p : Parse := ⟨rest, [], handles ++ defaultHandles⟩
    if rest.head?.any endsDocument then return (.empty, p) else p.rootNode
  | _ => throw .malformed

/-- The only document of tokens, when there is one. -/
def document? (tokens : List Token) : Except Error (Option Node) := do
  match tokens with
  | [.streamEnd] => return none
  | first :: _ =>
    let isExplicit := match first with
      | .versionDirective _ | .tagDirective _ _ | .otherDirective | .documentStart => true
      | _ => false
    let (n, p) ← if isExplicit then explicitDocument tokens else rootNode ⟨tokens, [], defaultHandles⟩
    if isOver p.tokens then return some n else throw .malformed
  | [] => throw .malformed

end Parse

end WorkspaceLint.Yaml
