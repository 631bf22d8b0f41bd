import WorkspaceLint.DataFile
import WorkspaceLint.Text.Case
import WorkspaceLint.Yaml.Document

/-!
# Configuration files

A configuration file holds a map, as JSON or as YAML; the suffix of its name says which, in any case. An empty document is an
empty map. YAML is decoded in pieces, which shows in the places of octets that are no text.
-/

namespace WorkspaceLint.Settings

open Files (FileSystem)

/-- Why a configuration file holds no map. -/
inductive MappingError where
  /-- The suffix stands for no format. -/
  | format (suffix : String)
  /-- The path holds a null character. -/
  | nullCharacter
  /-- The file could not be opened. -/
  | lookup (e : Files.Error)
  /-- The octets are no text. -/
  | encoding (e : Text.Utf8Error)
  /-- The text is no JSON. -/
  | json (e : Json.Error)
  /-- The text is no YAML. -/
  | yaml (e : Yaml.Error)
  /-- The value is no map. -/
  | notMap (path : Path)

/-- The message for a configuration file that holds no map. -/
def MappingError.message : MappingError → String
  | .format suffix => "不支持的文件格式: " ++ suffix
  | .nullCharacter => Failure.nullCharacter.message
  | .lookup e => e.message
  | .encoding e => e.message
  | .json (.malformed m) => m.message
  | .json (.integerTooLong digits) => Number.tooLongMessage digits
  | .yaml e => e.message
  | .notMap path => "配置文件内容必须是映射: " ++ path.text

/-- A format of configuration files. -/
inductive Format where
  /-- JSON. -/
  | json
  /-- YAML. -/
  | yaml
deriving DecidableEq

/-- The format that a suffix stands for. -/
def Format.ofSuffix? (suffix : String) : Option Format :=
  match Text.lowered suffix with
  | ".json" => some .json
  | ".yaml" => some .yaml
  | ".yml" => some .yaml
  | _ => none

/-- How many octets of a YAML file are decoded at a time. -/
def pieceSize : Nat := 8192

/-- The value that octets in a format write. -/
def Format.read (octets : List UInt8) : Format → Except MappingError Value
  | .json => do
    let text ← (Text.decode octets).mapError .encoding
    (Json.read (Text.unifyNewlines text)).mapError .json
  | .yaml => do
    let text ← (Text.decodePieces pieceSize (octets.length + 1) [] octets).mapError .encoding
    (Yaml.read (Text.unifyNewlines text)).mapError .yaml

/-- The format and the octets of the configuration file at a path. -/
def configFile (fs : FileSystem) (path : Path) : Except MappingError (Format × List UInt8) :=
  match Format.ofSuffix? path.suffix with
  | none => .error (.format path.suffix)
  | some format =>
    if path.text.toList.contains '\x00' then .error .nullCharacter
    else ((fs.octets? path).mapError .lookup).map fun octets => (format, octets)

/-- The entries of the value of the configuration file at a path, which has to be a map; nothing stands for an empty one. -/
def entriesOf (path : Path) : Value → Except MappingError (List (Value × Value))
  | .null => .ok []
  | .map entries => .ok entries
  | _ => .error (.notMap path)

/-- The entries of the map that the configuration file at a path holds. -/
def loadMapping (fs : FileSystem) (path : Path) : Except MappingError (List (Value × Value)) := do
  let (format, octets) ← configFile fs path
  entriesOf path (← format.read octets)

end WorkspaceLint.Settings
