import ResourceKinds.CommandLine.Program

open ResourceKinds

namespace ResourceKinds.Program

/-- The files and directories at and below a place. What cannot be read as text is left out. -/
partial def readTree (place : List String) : IO (Option FileTree) := do
  let path := (← IO.currentDir) / ("/" ++ "/".intercalate place)
  if ← path.isDir then
    let names := (← path.readDir).toList.map (·.fileName)
    let entries ← names.filterMapM fun name => do
      return (← readTree (place ++ [name])).map fun node => (name, node)
    return some (.directory entries)
  else if ← path.pathExists then
    try return some (.file (← IO.FS.readFile path)) catch _ => return none
  else return none

/-- Adds what there is at and below a place, and the directories above it. -/
def addPlace (tree : FileTree) (place : List String) : IO FileTree := do
  let mut tree := tree
  for depth in List.range place.length do
    let above := place.take depth
    let path := (← IO.currentDir) / ("/" ++ "/".intercalate above)
    if (tree.get? above).isNone && (← path.isDir) then tree := tree.put above .empty
  match ← readTree place with
  | none => return tree
  | some node => return tree.put place node

/-- The place of a path, with the steps up carried out. -/
def placeOf (home : List String) (path : String) : List String :=
  ((FilePath.ofString path).placeFrom home).foldl (fun place segment =>
    if segment = ".." then place.dropLast else place ++ [segment]) []

/-- The variables of the environment. -/
def readEnvironment : IO (Fields String) := do
  let text ← try IO.FS.readFile "/proc/self/environ" catch _ => pure ""
  return Table.ofList ((Text.split '\x00' text).map (Text.cut '='))

/-- The paths that a run may read or write. -/
def pathsOf (environment : Fields String) (invocation : Invocation) (settings : Option Settings) : List String :=
  let named := Settings.knownFiles environment ++ invocation.settingsFile.toList
  let command := match invocation.command with
    | .generate input output _ _ => input :: (output.or (settings.map (·.output.directory))).toList
    | .versions input => [input]
    | .schema input _ _ => [input]
  match settings with
  | none => named ++ named.flatMap fun path => Settings.readers.map fun (extension, _) => path ++ "." ++ extension
  | some _ => command

/-- Makes a real directory hold what a tree holds. -/
partial def writeTree (before : Option FileTree) (place : List String) : FileTree → IO Unit
  | .file content => do
    match before with
    | some (.file old) => if old ≠ content then IO.FS.writeFile ("/" ++ "/".intercalate place) content
    | _ => IO.FS.writeFile ("/" ++ "/".intercalate place) content
  | .directory entries => do
    match before with
    | some (.directory _) => pure ()
    | _ => IO.FS.createDirAll ("/" ++ "/".intercalate place)
    for (name, node) in entries do
      writeTree (before.bind (·.get? [name])) (place ++ [name]) node

end ResourceKinds.Program

def main (arguments : List String) : IO UInt32 := do
  let home := (FilePath.ofString (← IO.currentDir).toString).segments
  let environment ← Program.readEnvironment
  let mut tree ← Program.addPlace .empty home.dropLast
  match Invocation.ofArguments arguments with
  | .error _ => pure ()
  | .ok invocation =>
    for path in Program.pathsOf environment invocation none do
      tree ← Program.addPlace tree (Program.placeOf home path)
    let settings := (Settings.load ⟨tree, home, environment⟩ invocation.settingsFile).toOption
    for path in Program.pathsOf environment invocation (settings.or (some .default)) do
      tree ← Program.addPlace tree (Program.placeOf home path)
  let outcome := Program.run ⟨tree, home, environment⟩ arguments
  Program.writeTree (some tree) [] outcome.files
  IO.print outcome.output
  IO.eprint outcome.errors
  return outcome.status.toUInt32
