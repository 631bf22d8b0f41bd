import WorkspaceLint.CommandLine.Run
import WorkspaceLint.Files.Edit

/-!
# The program

Reads what a call needs of the file tree and of the environment, and writes what the call gives. Links are kept by the canonical
path that they lead to, and what they lead to is read too.
-/

namespace WorkspaceLint.Main

open Files (FileSystem Node)

/-- A target for links that lead nowhere. -/
def nowhere : String := "/nowhere"

/-- The canonical path of a path. -/
def realTarget (path : String) : IO String := do
  try return (← IO.FS.realPath path).toString catch _ => return nowhere

/-- The node of an entry of a directory, and the canonical paths that links in it lead to. -/
partial def readEntry (e : IO.FS.DirEntry) : IO (Node × List String) := do
  let kind ← try pure (some (← e.path.symlinkMetadata).type) catch _ => pure none
  match kind with
  | some .dir =>
    let entries ← try e.path.readDir catch _ => pure #[]
    let mut nodes := []
    let mut targets := []
    for entry in entries do
      let (n, more) ← readEntry entry
      nodes := (entry.fileName, n) :: nodes
      targets := more ++ targets
    return (.dir nodes.reverse, targets)
  | some .symlink =>
    let target ← realTarget e.path.toString
    return (.link target, [target])
  | some .file =>
    let content ← try IO.FS.readBinFile e.path catch _ => pure .empty
    return (.file content.toList, [])
  | _ => return (.file [], [])

/-- The entry at a path that does not lead to the root. -/
def entryAt (path : Path) : IO IO.FS.DirEntry := do
  return ⟨← IO.FS.realPath path.parent.text, path.name⟩

/-- A file system with what lies at canonical paths and wherever links in it lead. -/
partial def readAll (fs : FileSystem) (done : List String) : List String → IO FileSystem
  | [] => return fs
  | text :: rest => do
    let path := Path.ofString text
    if done.contains text ∨ path.parts = [] then readAll fs done rest
    else
      let there ← try (do pure (some (← readEntry (← entryAt path)))) catch _ => pure none
      match there with
      | some (n, targets) => readAll (fs.putAt path.parts n) (text :: done) (targets ++ rest)
      | none => readAll fs (text :: done) rest

/-- A file system with the links on the way along a path. -/
def readWay (fs : FileSystem) (path : Path) : IO FileSystem := do
  let mut fs := fs
  for n in [1 : path.parts.length + 1] do
    let way := Path.absolute (path.parts.take n)
    let kind ← try (do pure (some (← (← entryAt way).path.symlinkMetadata).type)) catch _ => pure none
    if let some .symlink := kind then fs := fs.makeLink way (← realTarget way.text)
  return fs

/-- The variables of the environment that settings look at. -/
def readVariables : IO (List (String × String)) := do
  let names := [Settings.Field.logLevel, .namingDirs, .treeDepth].flatMap fun field =>
    let name := Settings.startOfNames ++ field.name
    [name, Text.uppered name]
  let mut found := []
  for name in names do
    if let some value ← IO.getEnv name then found := found ++ [(name, value)]
  return found

/-- What a call needs of what is around it: what lies beside the path that is scanned, and the files that settings come from. -/
def readSurroundings (args : List String) : IO Settings.Surroundings := do
  let directory := Path.ofString (← IO.currentDir).toString
  let seenFrom := fun (text : String) => directory.join (Path.ofString text)
  let (scanned, config) := match CommandLine.callOf args with
    | .ok (.lint r) => ((r.path.map seenFrom).getD directory, r.config.map seenFrom)
    | _ => (directory, none)
  let scanTarget := Path.ofString (← realTarget scanned.text)
  let top := if scanTarget.parent.parts = [] then scanTarget else scanTarget.parent
  let mut fs ← readAll ⟨[]⟩ [] [top.text]
  let files := directory.child Settings.envFileName :: config.toList
  for file in files do
    fs ← readAll fs [] [← realTarget file.text]
  for path in scanned :: files do
    fs ← readWay fs path
  return ⟨fs, directory, ← readVariables⟩

/-- The message for what ends a call. -/
def crashMessage : CommandLine.Crash → String
  | .unknownLevel name => unknownLevelMessage name
  | .keyNotText => Settings.LoadError.keyNotText.message
  | .scalar e => e.message

end WorkspaceLint.Main

/-- Runs a call of the program. -/
def main (args : List String) : IO UInt32 := do
  match WorkspaceLint.CommandLine.run (← WorkspaceLint.Main.readSurroundings args) args with
  | .finished f =>
    (← IO.getStdout).putStr f.stdout
    (← IO.getStderr).putStr f.stderr
    return UInt32.ofNat f.exitCode
  | .crashed c =>
    (← IO.getStderr).putStrLn (WorkspaceLint.Main.crashMessage c)
    return 1
