import WorkspaceLint.Text.Base64
import WorkspaceLint.Value.Basic
import WorkspaceLint.Yaml.Node

/-!
# Reading YAML

From the nodes of a document to its value. Scalars are read by their tags. Of several faults the one that lies least deep is
reported, and of equally deep ones the first; the members of a list or map lie one level deeper than the members beside it.
-/

namespace WorkspaceLint.Yaml

/-! ### Scalars -/

/-- The truth value that a text writes, in any case. -/
def boolValue (text : String) : Except Error Value :=
  let word := Text.lowered text
  if word ∈ ["yes", "true", "on"] then .ok (.bool true)
  else if word ∈ ["no", "false", "off"] then .ok (.bool false)
  else .error (.notTruthValue word)

/-- A whole number in base sixty of its parts, the least one first. -/
def sixtieths : List Int → Int
  | [] => 0
  | n :: rest => n + 60 * sixtieths rest

/-- The whole number that a text without sign and underscores writes. -/
def unsignedInt (s : List Char) : Except Error Int :=
  let read (base : Nat) (s : List Char) : Except Error Int := (Number.integerOf base s).mapError .numeral
  match s with
  | [] => .error .emptyNumber
  | ['0'] => .ok 0
  | '0' :: 'b' :: rest => read 2 rest
  | '0' :: 'x' :: rest => read 16 rest
  | '0' :: rest => read 8 ('0' :: rest)
  | s => if s.contains ':' then ((s.splitOn ':').mapM (read 10)).map fun ns => sixtieths ns.reverse else read 10 s

/-- The whole number that a text writes. -/
def intValue (text : String) : Except Error Value :=
  let (negative, unsigned) := Number.splitSign (text.toList.filter (· ≠ '_'))
  (unsignedInt unsigned).map fun n => .int (if negative then -n else n)

/-- A fraction in base sixty of its parts, the least one first, the first of them so many units and added to a sum. The units have to
be fractions themselves. -/
def sixtiethFractions (unit : Nat) (sum : Number.Binary64) : List Number.Binary64 → Except Error Number.Binary64
  | [] => .ok sum
  | x :: rest =>
    if (Number.Binary64.ofNat unit).isFinite then
      sixtiethFractions (unit * 60) (sum.add (x.mul (.ofNat unit))) rest
    else .error .unitTooGreat

/-- The fraction that a text without sign and underscores writes, in lower case. -/
def unsignedFloat (s : List Char) : Except Error Number.Binary64 :=
  let read (s : List Char) : Except Error Number.Binary64 := (Number.fractionOf s).mapError .numeral
  if s = ".inf".toList then .ok (.infinite false)
  else if s = ".nan".toList then .ok .nan
  else if s.contains ':' then
    ((s.splitOn ':').mapM read).bind fun xs => sixtiethFractions 1 (.zero false) xs.reverse
  else read s

/-- The fraction that a text writes. -/
def floatValue (text : String) : Except Error Value :=
  let s := Text.lower (text.toList.filter (· ≠ '_'))
  let (negative, unsigned) := Number.splitSign s
  if s = [] then .error .emptyNumber
  else (unsignedFloat unsigned).map fun x => .float (if negative then x.neg else x)

/-- The day or moment that a text writes. -/
def timestampValue (text : String) : Except Error Value :=
  match timestamp? (dropFinalBreak text.toList) with
  | some (.day d) => (d.check.mapError .moment).map .day
  | some (.moment t) => (t.check.mapError .moment).map .moment
  | none => .error .notMoment

/-- The octets that a text writes. -/
def octetsValue (text : String) : Except Error Value :=
  if text.toList.all (·.toNat < 128) then
    match Text.base64Octets? text.toList with
    | some octets => .ok (.octets octets)
    | none => .error .malformed
  else .error .malformed

/-- The value of a scalar of a tag. -/
def scalarValue (tag : Tag) (text : String) : Except Error Value :=
  match tag with
  | .null => .ok .null
  | .bool => boolValue text
  | .int => intValue text
  | .float => floatValue text
  | .text => .ok (.text text)
  | .timestamp => timestampValue text
  | .octets => octetsValue text
  | _ => .error .malformed

mutual

/-- The text of a scalar. The default of a map stands for the map. -/
def Node.scalarText? : Node → Option String
  | .scalar _ text => some text
  | .list _ _ => none
  | .map _ entries => Node.defaultText? entries

/-- The text of the first default among entries. -/
def Node.defaultText? : List (Node × Node) → Option String
  | [] => none
  | (key, item) :: rest => if key.tag = .default then item.scalarText? else Node.defaultText? rest

end

/-! ### Lists and maps -/

/-- A fault and how deep it lies. -/
structure Fault where
  /-- How deep the fault lies. -/
  depth : Nat
  /-- The fault. -/
  error : Error

/-- Two results, or the fault that counts. -/
def both {α β : Type} (x : Except Fault α) (y : Except Fault β) : Except Fault (α × β) :=
  match x, y with
  | .ok a, .ok b => .ok (a, b)
  | .error e, .ok _ => .error e
  | .ok _, .error f => .error f
  | .error e, .error f => .error (if f.depth < e.depth then f else e)

/-- The fault of a tag that does not fit. -/
def misfit {α : Type} (depth : Nat) : Except Fault α := .error ⟨depth, .malformed⟩

/-- Whether a value may be a key. -/
def isKey : Value → Bool
  | .list _ | .map _ | .set _ => false
  | _ => true

/-- A key at a depth, which has to be a scalar. -/
def keyAt (depth : Nat) (key : Except Fault Value) : Except Fault Value :=
  match key with
  | .ok v => if isKey v then .ok v else misfit depth
  | .error f => if f.depth ≤ depth then .error f else misfit depth

/-- Entries as a map: an entry under a key that is there before takes the place of that one. -/
def mapOf (entries : List (Value × Value)) : List (Value × Value) :=
  entries.foldl (fun before (key, item) => Value.putEntry key item before) []

mutual

/-- The value of a node at a depth. -/
def Node.value (depth : Nat) : Node → Except Fault Value
  | .scalar tag text =>
    match tag with
    | .list | .map | .set | .pairs => misfit (depth + 1)
    | tag => (scalarValue tag text).mapError (⟨depth, ·⟩)
  | .list tag items =>
    match tag with
    | .list => (Node.values (depth + 1) items).map .list
    | .pairs => (Node.pairValues (depth + 1) items).map .list
    | .map | .set => misfit (depth + 1)
    | _ => misfit depth
  | .map tag entries =>
    match tag with
    | .map => (Node.entryValues (depth + 1) entries).map fun es => .map (mapOf es)
    | .set => (Node.entryValues (depth + 1) entries).map fun es => .set ((mapOf es).map (·.1))
    | .list | .pairs => misfit (depth + 1)
    | tag =>
      match tag, Node.defaultText? entries with
      | .timestamp, some _ => .error ⟨depth, .notTextMoment⟩
      | tag, some text => (scalarValue tag text).mapError (⟨depth, ·⟩)
      | _, none => misfit depth

/-- The values of nodes in a row. -/
def Node.values (depth : Nat) : List Node → Except Fault (List Value)
  | [] => .ok []
  | n :: rest => (both (n.value depth) (Node.values depth rest)).map fun (v, vs) => v :: vs

/-- The values of entries. A default sign is a text where a key stands. -/
def Node.entryValues (depth : Nat) : List (Node × Node) → Except Fault (List (Value × Value))
  | [] => .ok []
  | (key, item) :: rest =>
    let keyValue := match key with
      | .scalar .default text => .ok (.text text)
      | key => keyAt depth (key.value depth)
    (both (both keyValue (item.value depth)) (Node.entryValues depth rest)).map fun (e, es) => e :: es

/-- The pairs that maps of one entry in a row stand for. -/
def Node.pairValues (depth : Nat) : List Node → Except Fault (List Value)
  | [] => .ok []
  | .map _ [(key, item)] :: rest =>
    (both (both (key.value depth) (item.value depth)) (Node.pairValues depth rest)).map fun ((k, v), vs) => .pair k v :: vs
  | _ :: _ => misfit depth

end

/-! ### Documents -/

/-- A character that may stand in a document. -/
def isAllowed (c : Char) : Bool :=
  let n := c.toNat
  n = 0x9 || n = 0xA || n = 0xD || (0x20 ≤ n && n ≤ 0x7E) || n = 0x85 || (0xA0 ≤ n && n ≤ 0xD7FF) ||
    (0xE000 ≤ n && n ≤ 0xFFFD) || 0x10000 ≤ n

/-- The value of the document that a text writes; a text without a document has no value. -/
def read (text : List Char) : Except Error Value :=
  if !text.all isAllowed then .error .malformed
  else do
    match ← Parse.document? (← tokensOf text) with
    | none => return .null
    | some n => (n.value 0).mapError (·.error)

end WorkspaceLint.Yaml
