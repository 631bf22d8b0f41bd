import WorkspaceLint.Files.Lookup
import WorkspaceLint.Text.Lines
import WorkspaceLint.Text.Utf8

/-!
# Reading files

The octets and the text of the file that a path leads to. Text is strict UTF-8; every line end is read as a line feed, and a
byte order mark stays.
-/

namespace WorkspaceLint.Files

/-- Why a file has no text. -/
inductive Unreadable where
  /-- The file could not be opened. -/
  | lookup (e : Error)
  /-- The octets are no text. -/
  | encoding (e : Text.Utf8Error)
deriving DecidableEq

/-- The message for a file that has no text. -/
def Unreadable.message : Unreadable → String
  | .lookup e => e.message
  | .encoding e => e.message

namespace FileSystem

/-- The octets of the file that a path leads to. -/
def octets? (fs : FileSystem) (path : Path) : Except Error (List UInt8) :=
  match fs.stat? path with
  | .ok (.file content) => .ok content
  | .ok _ => .error ⟨.isDirectory, path⟩
  | .error fault => .error ⟨fault, path⟩

/-- The text of the file that a path leads to. -/
def text? (fs : FileSystem) (path : Path) : Except Unreadable (List Char) :=
  match fs.octets? path with
  | .error e => .error (.lookup e)
  | .ok content =>
    match Text.decode content with
    | .error e => .error (.encoding e)
    | .ok chars => .ok (Text.unifyNewlines chars)

end FileSystem

end WorkspaceLint.Files
