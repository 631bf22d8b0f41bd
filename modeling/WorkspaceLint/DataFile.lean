import WorkspaceLint.Failure
import WorkspaceLint.Files.Reading
import WorkspaceLint.Json.Reader

/-!
# JSON files

The value of the JSON file that a path leads to. What is wrong with the file itself is a `DataFileFault`, which checks report
where the file lies; a path with a null character and an integer with too many digits are failures.
-/

namespace WorkspaceLint

/-- Why a JSON file has no value of the kind that is asked for. -/
inductive DataFileFault where
  /-- The file has no text. -/
  | unreadable (e : Files.Unreadable)
  /-- The text is no JSON. -/
  | malformed (m : Json.Malformed)
  /-- The value is no map. -/
  | notMap

/-- The reason that messages give. -/
def DataFileFault.reason : DataFileFault → String
  | .unreadable e => e.message
  | .malformed m => m.message
  | .notMap => "顶层必须是 JSON 对象"

/-- The value of a JSON file, or what is wrong with the file. -/
def loadJson (fs : Files.FileSystem) (path : Path) : Except Failure (Except DataFileFault Value) :=
  if path.text.toList.contains '\x00' then .error .nullCharacter
  else
    match fs.text? path with
    | .error e => .ok (.error (.unreadable e))
    | .ok text =>
      match Json.read text with
      | .ok v => .ok (.ok v)
      | .error (.malformed m) => .ok (.error (.malformed m))
      | .error (.integerTooLong digits) => .error (.integerTooLong digits)

/-- The map of a JSON file, or what is wrong with the file. -/
def loadJsonMap (fs : Files.FileSystem) (path : Path) : Except Failure (Except DataFileFault Value) :=
  (loadJson fs path).map fun loaded => loaded.bind fun v => if v.isMap then .ok v else .error .notMap

end WorkspaceLint
