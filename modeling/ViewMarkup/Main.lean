import ViewMarkup.CommandLine.Session

namespace ViewMarkup.CommandLine

/-- The files and directories at an entry of a directory, added to a tree. -/
partial def readEntry (tree : Tree) (location : Location) (entry : IO.FS.DirEntry) : IO Tree := do
  if ← entry.path.isDir then
    let tree := { tree with directories := tree.directories ++ [location] }
    (← entry.path.readDir).foldlM
      (fun tree below => readEntry tree (location ++ [below.fileName.toList]) below) tree
  else if ← entry.path.pathExists then
    return tree.put location (← IO.FS.readBinFile entry.path).data.toList
  else return tree

/-- The location that a path spells, from the current directory. -/
def spelledLocation (here : Location) (path : Path) : Location :=
  path.names.foldl (fun location name => if name = ['.', '.'] then location.dropLast else location ++ [name])
    (if path.anchor = .here then here else [])

/-- The text of a location from the root. -/
def locationText (location : Location) : String :=
  String.ofList ('/' :: Text.join "/" location)

/-- The tree with what the paths lead to. -/
def readPaths (tree : Tree) (paths : List Path) : IO Tree := do
  let top ← IO.FS.realPath "/"
  paths.foldlM (fun tree path =>
    let location := spelledLocation tree.here path
    readEntry tree location ⟨top, (locationText location).drop 1 |>.toString⟩) tree

/-- The tree that a command looks at: its paths, and the directory of each path that is a file. -/
def readTree (here : Location) (command? : Option Command) : IO Tree := do
  let paths := ((command?.map Command.paths).getD []).map Path.ofText
  let tree ← readPaths { Tree.empty with directories := [here], here }
    (configurationPath :: paths)
  readPaths tree ((paths.filter fun path => !tree.isDirectory path).map Path.parent)

/-- The variables that set settings. -/
def readEnvironment : IO (Fields Text) :=
  SettingName.all.filterMapM fun setting => do
    let value? ← IO.getEnv (String.ofList setting.environmentVariable)
    return value?.map fun value => (setting.environmentVariable, value.toList)

/-- Writes the files that a run changed. -/
def writeChanges (before after : Tree) : IO Unit :=
  after.files.forM fun (location, bytes) => do
    if before.bytes? location ≠ some bytes then
      IO.FS.createDirAll (locationText location.dropLast)
      IO.FS.writeBinFile (locationText location) ⟨bytes.toArray⟩

end ViewMarkup.CommandLine

open ViewMarkup CommandLine in
/-- Runs the program once in the current directory. -/
def main (args : List String) : IO UInt32 := do
  let here := (ViewMarkup.Path.ofText (← IO.currentDir).toString.toList).names
  let args := args.map String.toList
  let tree ← readTree here (Command.ofLine? args)
  let (session, ending) := Session.run ⟨tree, ← readEnvironment, .initial⟩ args
  writeChanges tree session.tree
  match ending with
  | .usage =>
    IO.eprintln "Usage: [-v] (compile | check | ast | symbols | components) [OPTIONS] [PATH]"
    return 2
  | .finished exit out err =>
    IO.print (String.ofList out)
    IO.eprint (String.ofList err)
    return exit.toUInt32
  | .crashed crash =>
    IO.eprintln (String.ofList crash.message)
    return 1
