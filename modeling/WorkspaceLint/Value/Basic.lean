import WorkspaceLint.Number.Binary64
import WorkspaceLint.Value.Moment

/-!
# Values of data files

What a data file holds once it has been read: scalars, lists, and maps in the order in which their keys first stood. JSON files
hold the first seven kinds only, with texts as keys; the rest comes from YAML files.
-/

namespace WorkspaceLint

/-- A value of a data file. -/
inductive Value where
  /-- Nothing. -/
  | null
  /-- A truth value. -/
  | bool (b : Bool)
  /-- A whole number. -/
  | int (n : Int)
  /-- A fraction. -/
  | float (x : Number.Binary64)
  /-- A text. -/
  | text (s : String)
  /-- Values in a row. -/
  | list (items : List Value)
  /-- Values under keys. -/
  | map (entries : List (Value × Value))
  /-- A calendar day. -/
  | day (d : Day)
  /-- A moment of a day. -/
  | moment (t : Moment)
  /-- Octets. -/
  | octets (bytes : List UInt8)
  /-- Keys without values. -/
  | set (items : List Value)
  /-- A key with its value, in a row of such. -/
  | pair (key item : Value)

namespace Value

/-- Whether two values are the same key: numbers and truth values by their size, other scalars by kind and content. Values that
cannot be keys are never the same. -/
def sameKey : Value → Value → Bool
  | .null, .null => true
  | .bool a, .bool b => a == b
  | .bool a, .int n => n == (if a then 1 else 0)
  | .int n, .bool a => n == (if a then 1 else 0)
  | .bool a, .float x => x.toInt? == some (if a then 1 else 0)
  | .float x, .bool a => x.toInt? == some (if a then 1 else 0)
  | .int m, .int n => m == n
  | .int n, .float x => x.toInt? == some n
  | .float x, .int n => x.toInt? == some n
  | .float x, .float y => x == y || (x.isZero && y.isZero)
  | .text s, .text t => s == t
  | .day d, .day e => d == e
  | .moment t, .moment u => t == u
  | .octets a, .octets b => a == b
  | _, _ => false

/-- Entries with one more value under a key. A key that is there keeps its place and its spelling and takes the new value. -/
def putEntry (key item : Value) : List (Value × Value) → List (Value × Value)
  | [] => [(key, item)]
  | (k, v) :: rest => if k.sameKey key then (k, item) :: rest else (k, v) :: putEntry key item rest

/-- The value under a text in a map. -/
def get? (key : String) : Value → Option Value
  | .map entries => (entries.find? fun e => e.1.sameKey (.text key)).map (·.2)
  | _ => none

/-- Whether a value counts as given: neither nothing, nor false, nor zero, nor empty. -/
def isGiven : Value → Bool
  | .null => false
  | .bool b => b
  | .int n => n != 0
  | .float x => !x.isZero
  | .text s => s != ""
  | .list items => !items.isEmpty
  | .map entries => !entries.isEmpty
  | .octets bytes => !bytes.isEmpty
  | .set items => !items.isEmpty
  | _ => true

/-- Whether a value is a map. -/
def isMap : Value → Bool
  | .map _ => true
  | _ => false

end Value

end WorkspaceLint
