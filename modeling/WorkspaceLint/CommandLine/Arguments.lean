/-!
# Arguments

What the arguments of a call ask for. Options may stand before and after the path; after two hyphens alone everything is a path.
Flags of one letter may stand together, and the value of an option may be attached to it. A call that asks for the version or
for help gets it whatever else stands in it, unless an option is not known or lacks its value.
-/

namespace WorkspaceLint.CommandLine

/-- An option without a value. -/
inductive Flag where
  /-- Reports are written as JSON. -/
  | json
  /-- Every event is logged. -/
  | verbose
  /-- The version is written. -/
  | version
  /-- Help is written. -/
  | help
deriving DecidableEq

/-- An option with a value. -/
inductive Setting where
  /-- The directories whose names are checked. -/
  | dirs
  /-- The configuration file. -/
  | config
deriving DecidableEq

/-- What one or two arguments say. -/
inductive Item where
  /-- A flag. -/
  | flag (f : Flag)
  /-- An option and its value. -/
  | setting (s : Setting) (value : String)
  /-- A path. -/
  | operand (text : String)
deriving DecidableEq

/-- Why arguments are refused. -/
inductive UsageError where
  /-- There is no such option. -/
  | unknownOption (name : String)
  /-- An option lacks its value. -/
  | missingValue (name : String)
  /-- A flag has a value. -/
  | unexpectedValue (name : String)
  /-- There is more than one path. -/
  | extraOperands (texts : List String)
  /-- A path does not lead to a directory, or to a file where one is asked for. -/
  | unfitPath (text : String)
deriving DecidableEq

/-- The message for arguments that are refused. -/
def UsageError.message : UsageError → String
  | .unknownOption name => "unknown option: " ++ name
  | .missingValue name => "option needs a value: " ++ name
  | .unexpectedValue name => "option takes no value: " ++ name
  | .extraOperands texts => "unexpected arguments: " ++ " ".intercalate texts
  | .unfitPath text => "no such file or directory: " ++ text

/-- An option by what it takes. -/
abbrev OptionKind := Sum Flag Setting

/-- The option of a long name. -/
def longOption? : String → Option OptionKind
  | "--json" => some (.inl .json)
  | "--verbose" => some (.inl .verbose)
  | "--version" => some (.inl .version)
  | "--help" => some (.inl .help)
  | "--dirs" => some (.inr .dirs)
  | "--config" => some (.inr .config)
  | _ => none

/-- The option of a letter. -/
def shortOption? : Char → Option OptionKind
  | 'v' => some (.inl .verbose)
  | 'd' => some (.inr .dirs)
  | 'c' => some (.inr .config)
  | _ => none

/-- What letters after a hyphen say, and the option that still needs its value, with its name. -/
def letterItems : List Char → Except UsageError (List Item × Option (String × Setting))
  | [] => .ok ([], none)
  | c :: rest =>
    let name := String.ofList ['-', c]
    match shortOption? c with
    | none => .error (.unknownOption name)
    | some (.inl f) => (letterItems rest).map fun (items, pending) => (.flag f :: items, pending)
    | some (.inr s) => .ok (if rest = [] then ([], some (name, s)) else ([.setting s (String.ofList rest)], none))

/-- What an argument after two hyphens says, and the option that still needs its value, with its name. -/
def longItems (arg : List Char) : Except UsageError (List Item × Option (String × Setting)) :=
  let name := String.ofList (arg.takeWhile (· ≠ '='))
  let value := if arg.contains '=' then some (String.ofList ((arg.dropWhile (· ≠ '=')).drop 1)) else none
  match longOption? name, value with
  | none, _ => .error (.unknownOption name)
  | some (.inl f), none => .ok ([.flag f], none)
  | some (.inl _), some _ => .error (.unexpectedValue name)
  | some (.inr s), none => .ok ([], some (name, s))
  | some (.inr s), some value => .ok ([.setting s value], none)

/-- What an argument says, and the option that still needs its value, with its name. -/
def argumentItems (arg : String) : Except UsageError (List Item × Option (String × Setting)) :=
  match arg.toList with
  | '-' :: '-' :: rest => longItems ('-' :: '-' :: rest)
  | '-' :: c :: rest => letterItems (c :: rest)
  | _ => .ok ([.operand arg], none)

/-- What arguments say, in their order. -/
def itemsOf : List String → Except UsageError (List Item)
  | [] => .ok []
  | arg :: rest =>
    if arg = "--" then .ok (rest.map .operand)
    else
      match argumentItems arg with
      | .error e => .error e
      | .ok (items, none) => (itemsOf rest).map (items ++ ·)
      | .ok (items, some (name, s)) =>
        match rest with
        | [] => .error (.missingValue name)
        | value :: rest => (itemsOf rest).map fun more => items ++ .setting s value :: more

/-- What a lint call asks for. -/
structure Request where
  /-- The path that is scanned; without one it is the working directory. -/
  path : Option String
  /-- The directories whose names are checked, when they are given. -/
  dirs : Option String
  /-- The path of the configuration file, when one is given. -/
  config : Option String
  /-- Whether the report is written as JSON. -/
  isJson : Bool
  /-- Whether every event is logged. -/
  isVerbose : Bool
deriving DecidableEq

/-- What a call asks for. -/
inductive Call where
  /-- The version. -/
  | version
  /-- Help. -/
  | help
  /-- A lint run. -/
  | lint (r : Request)
deriving DecidableEq

/-- The last value of an option. -/
def lastValue? (items : List Item) (s : Setting) : Option String :=
  (items.filterMap fun
    | .setting t value => if t = s then some value else none
    | _ => none).getLast?

/-- The paths among what arguments say. -/
def operands (items : List Item) : List String :=
  items.filterMap fun
    | .operand text => some text
    | _ => none

/-- The first question for the version or for help. -/
def question? (items : List Item) : Option Call :=
  items.findSome? fun
    | .flag .version => some .version
    | .flag .help => some .help
    | _ => none

/-- What arguments ask for. -/
def callOf (args : List String) : Except UsageError Call := do
  let items ← itemsOf args
  match question? items, operands items with
  | some call, _ => return call
  | none, _ :: extra :: more => throw (.extraOperands (extra :: more))
  | none, paths =>
    return .lint {
      path := paths.head?
      dirs := lastValue? items .dirs
      config := lastValue? items .config
      isJson := items.contains (.flag .json)
      isVerbose := items.contains (.flag .verbose) }

end WorkspaceLint.CommandLine
