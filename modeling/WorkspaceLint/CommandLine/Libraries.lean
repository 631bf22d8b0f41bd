import WorkspaceLint.Settings.Load

/-!
# What a call leaves to libraries

A call has configuration files read, settings made of named values, and texts written to the standard output. Each of the three may
fail. The settings are loaded by what the libraries make of what is around: where a library has a fault of a kind that the call is
prepared for, the settings are refused with a message, and any other fault escapes from the call. So does a key of a configuration
file that is no text, which cannot be the name of a value.
-/

namespace WorkspaceLint.CommandLine

open Settings (Surroundings Format MappingError LoadError)

/-- A fault of a library, and whether calls are prepared for faults of its kind. -/
inductive LibraryFault (ε : Type) where
  /-- Calls are prepared for it, and write its message. -/
  | expected (message : String)
  /-- Calls are not prepared for it. -/
  | unexpected (e : ε)

/-- The same fault, for whoever calls it by another name. -/
def LibraryFault.map {ε δ : Type} (f : ε → δ) : LibraryFault ε → LibraryFault δ
  | .expected message => .expected message
  | .unexpected e => .unexpected (f e)

/-- What a call leaves to libraries. -/
structure Libraries (ε : Type) where
  /-- The value that the octets of a configuration file write. -/
  read : Format → List UInt8 → Except (LibraryFault ε) Value
  /-- The settings that named values make, by what is around. -/
  settings : Surroundings → List (String × Value) → Except (LibraryFault ε) Settings
  /-- Nothing, when the standard output takes a text. It need not take one that its encoding has no octets for. -/
  write : String → Except ε Unit

/-- What escapes from a call. -/
inductive Escape (ε : Type) where
  /-- There is no such log level. -/
  | unknownLevel (name : String)
  /-- A key of the configuration file is no text. -/
  | keyNotText
  /-- A library has a fault that the call is not prepared for. -/
  | library (e : ε)

/-- The same entries under names, when all keys are texts. -/
def named? : List (Value × Value) → Option (List (String × Value))
  | [] => some []
  | (.text name, item) :: rest => (named? rest).map ((name, item) :: ·)
  | _ :: _ => none

namespace Libraries

variable {ε : Type}

/-- The entries of the map that the configuration file at a path holds. -/
def entries (lib : Libraries ε) (w : Surroundings) (path : Path) : Except (LibraryFault ε) (List (Value × Value)) := do
  let refused := fun (e : MappingError) => LibraryFault.expected e.message
  let (format, octets) ← (Settings.configFile w.files path).mapError refused
  (Settings.entriesOf path (← lib.read format octets)).mapError refused

/-- The named values that a configuration file holds, and none without a file. -/
def named (lib : Libraries ε) (w : Surroundings) :
    Option Path → Except (LibraryFault (Escape ε)) (List (String × Value))
  | none => .ok []
  | some path => do
    match named? (← (lib.entries w path).mapError (·.map .library)) with
    | some named => return named
    | none => throw (.unexpected .keyNotText)

/-- The settings by what is around and a configuration file. -/
def load (lib : Libraries ε) (w : Surroundings) (config : Option Path) :
    Except (LibraryFault (Escape ε)) Settings := do
  (lib.settings w (← lib.named w config)).mapError (·.map .library)

end Libraries

/-! ### Libraries as they are modelled -/

/-- Whether a fault of a YAML document is of a kind that no call is prepared for. -/
def escapes : Yaml.Error → Bool
  | .codePointTooWide | .emptyNumber | .unitTooGreat | .notTruthValue _ | .notMoment | .notTextMoment => true
  | _ => false

/-- What calls make of a configuration file without a map. -/
def faultOfMapping : MappingError → LibraryFault Yaml.Error
  | .yaml e => if escapes e then .unexpected e else .expected e.message
  | e => .expected e.message

/-- The libraries as they are modelled here. The standard output takes every text. -/
def modelled : Libraries Yaml.Error where
  read format octets := (format.read octets).mapError faultOfMapping
  settings w named :=
    (w.settings (named.map fun (name, item) => (.text name, item))).mapError fun e => .expected e.message
  write _ := .ok ()

end WorkspaceLint.CommandLine
