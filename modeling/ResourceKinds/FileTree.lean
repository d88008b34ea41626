import ResourceKinds.Text.Split

namespace ResourceKinds

/-- Why a file operation failed. -/
inductive FileError where
  | notFound
  | fileExists
  | notADirectory
  | isADirectory
  | nameTooLong
  | nulInName
deriving DecidableEq

def FileError.message : FileError → String
  | .notFound => "No such file or directory (os error 2)"
  | .fileExists => "File exists (os error 17)"
  | .notADirectory => "Not a directory (os error 20)"
  | .isADirectory => "Is a directory (os error 21)"
  | .nameTooLong => "File name too long (os error 36)"
  | .nulInName => "file name contained an unexpected NUL byte"

/-- What a file holds is text here, though it may be any bytes: only text is ever written, and anything else that is
found is of no use to a reader. -/
inductive FileTree where
  | file (content : String)
  | directory (entries : List (String × FileTree))

/-- A path is its text. It is walked from directory to directory: `.` stays and `..` goes up, and above the root is
the root. -/
structure FilePath where
  ofString ::
  text : String
deriving DecidableEq

/-- How a path ends: with a name, with a slash behind it, or with a `.`, which is the directory itself. -/
inductive PathEnd where
  | name
  | slash
  | dot
deriving DecidableEq

namespace FilePath

def pieces (path : FilePath) : List String := Text.split '/' path.text

/-- Empty pieces and `.` mean nothing inside a path. -/
def isSegment (piece : String) : Bool := piece ≠ "" && piece ≠ "."

def segments (path : FilePath) : List String := path.pieces.filter isSegment

/-- The path leads from the root, and not from the working directory. -/
def absolute (path : FilePath) : Bool := path.text.toList.head? = some '/'

def ending (path : FilePath) : PathEnd :=
  if (path.pieces.reverse.dropWhile (· = "")).head? = some "." then .dot
  else if path.pieces.getLast? = some "" then .slash
  else .name

/-- The most bytes that the system takes for a path. -/
def sizeLimit : Nat := 4095

/-- Why the system does not take the path at all, whatever there is at its place. -/
@[irreducible] def fault? (path : FilePath) : Option FileError :=
  if path.text.toList.contains '\x00' then some .nulInName
  else if sizeLimit < path.text.utf8ByteSize then some .nameTooLong
  else none

/-- The text of `path` below `base`; a path from the root stays as it is. -/
def join (base path : String) : String :=
  if path.toList.head? = some '/' then path
  else if base = "" then path
  else if base.toList.getLast? = some '/' then base ++ path
  else base ++ "/" ++ path

/-- The pieces in front of the last segment, up to the segment before it. -/
def front (pieces : List String) : List String :=
  ((pieces.reverse.dropWhile (!isSegment ·)).tail.dropWhile (!isSegment ·)).reverse

def parent (path : FilePath) : FilePath :=
  match front path.pieces with
  | [] => if path.absolute then ⟨"/"⟩ else ⟨""⟩
  | pieces => ⟨"/".intercalate pieces⟩

/-- The place of a path when `.` and nothing else is left out. -/
def placeFrom (home : List String) (path : FilePath) : List String :=
  if path.absolute then path.segments else home ++ path.segments

/-- A place as seen from another one. -/
def seenFrom : (base place : List String) → List String
  | b :: base, p :: place => if b = p then seenFrom base place else (b :: base).map (fun _ => "..") ++ p :: place
  | base, place => base.map (fun _ => "..") ++ place

/-- What follows the last dot of the last segment, unless the segment only begins with that dot. -/
def extension? (path : FilePath) : Option String :=
  match path.segments.getLast? with
  | none => none
  | some name => match Text.split '.' name with
    | [_] => none
    | ["", _] => none
    | parts => if name = ".." then none else parts.getLast?

end FilePath

namespace FileTree

def empty : FileTree := .directory []

def isDirectory : FileTree → Bool
  | .directory _ => true
  | .file _ => false

def childOf (entries : List (String × FileTree)) (name : String) : Option FileTree :=
  match entries with
  | [] => none
  | (key, node) :: rest => if key = name then some node else childOf rest name

def get? (tree : FileTree) : List String → Option FileTree
  | [] => some tree
  | name :: rest => match tree with
    | .file _ => none
    | .directory entries => (childOf entries name).bind (·.get? rest)

/-- The entries with a node under the given name. -/
def putEntry (entries : List (String × FileTree)) (name : String) (node : FileTree) : List (String × FileTree) :=
  match entries with
  | [] => [(name, node)]
  | (key, old) :: rest => if key = name then (name, node) :: rest else (key, old) :: putEntry rest name node

/-- Puts a node at a place. The directories on the way are there, or nothing changes. -/
def put (tree : FileTree) : List String → FileTree → FileTree
  | [], node => node
  | name :: rest, node => match tree with
    | .file content => .file content
    | .directory entries =>
      match childOf entries name, rest with
      | some child, rest => .directory (putEntry entries name (child.put rest node))
      | none, [] => .directory (putEntry entries name node)
      | none, _ :: _ => .directory entries

mutual

/-- The files below a tree with their places. -/
def files : FileTree → List (List String × String)
  | .file content => [([], content)]
  | .directory entries => filesOf entries

def filesOf : List (String × FileTree) → List (List String × String)
  | [] => []
  | (name, node) :: rest => (node.files.map fun (place, content) => (name :: place, content)) ++ filesOf rest

end

/-- The most bytes that a name can have. -/
def nameLimit : Nat := 255

def nameFault? (name : String) : Option FileError :=
  if nameLimit < name.utf8ByteSize then some .nameTooLong else none

/-- The place of the directory reached by walking the segments from a place. -/
def walk (tree : FileTree) (place : List String) : List String → Except FileError (List String)
  | [] => match tree.get? place with
    | some (.directory _) => .ok place
    | some (.file _) => .error .notADirectory
    | none => .error .notFound
  | segment :: rest => match tree.get? place, nameFault? segment with
    | some (.directory _), none =>
      if segment = ".." then tree.walk place.dropLast rest else tree.walk (place ++ [segment]) rest
    | some (.directory _), some fault => .error fault
    | some (.file _), _ => .error .notADirectory
    | none, _ => .error .notFound

/-- The place that a path begins at. -/
def base (home : List String) (path : FilePath) : List String := if path.absolute then [] else home

/-- The place that segments lead to, where the last one need not exist. A path that does not end with a name has none:
it is that of a directory which has been walked to. -/
def target? (tree : FileTree) (start segments : List String) (ending : PathEnd) :
    Except FileError (Option (List String)) :=
  match segments.getLast? with
  | none => .ok none
  | some name =>
    if ending = .dot then do
      let _ ← tree.walk start segments
      return none
    else do
      let directory ← tree.walk start segments.dropLast
      if name = ".." then return none
      match nameFault? name with
      | some fault => .error fault
      | none => return some (directory ++ [name])

def isDirectoryAt (tree : FileTree) (start segments : List String) : Bool :=
  match tree.walk start segments with
  | .ok _ => true
  | .error _ => false

def makeDirectory (tree : FileTree) (start segments : List String) (ending : PathEnd) : Except FileError FileTree := do
  match ← tree.target? start segments ending with
  | none => .error .fileExists
  | some place => match tree.get? place with
    | some _ => .error .fileExists
    | none => return tree.put place empty

/-- Makes the directory at the end of a list of segments, given in reverse, and those above it.
The tree that is left after a failure keeps the directories made so far. -/
def makeDirectories (tree : FileTree) (start : List String) (ending : PathEnd) :
    List String → FileTree × Except FileError Unit
  | [] => (tree, .ok ())
  | segment :: above =>
    let segments := (segment :: above).reverse
    let accept (tree : FileTree) (error : FileError) : FileTree × Except FileError Unit :=
      if tree.isDirectoryAt start segments then (tree, .ok ()) else (tree, .error error)
    match tree.makeDirectory start segments ending with
    | .ok made => (made, .ok ())
    | .error .notFound => match tree.makeDirectories start .name above with
      | (tree, .error error) => (tree, .error error)
      | (tree, .ok ()) => match tree.makeDirectory start segments ending with
        | .ok made => (made, .ok ())
        | .error error => accept tree error
    | .error error => accept tree error

/-- Makes the directory of a path and those above it. A path that the system does not take makes none at all. -/
def makePath (tree : FileTree) (home : List String) (path : FilePath) : FileTree × Except FileError Unit :=
  match path.fault? with
  | some fault => (tree, .error fault)
  | none => tree.makeDirectories (base home path) path.ending path.segments.reverse

/-- A path that ends with a slash is never that of a new file. -/
def writeFile (tree : FileTree) (home : List String) (path : FilePath) (content : String) :
    Except FileError FileTree :=
  match path.fault? with
  | some fault => .error fault
  | none =>
    if path.ending = .slash then do
      let _ ← tree.walk (base home path) path.segments.dropLast
      .error .isADirectory
    else do
      match ← tree.target? (base home path) path.segments path.ending with
      | none => .error (if path.text = "" then .notFound else .isADirectory)
      | some place => match tree.get? place with
        | some (.directory _) => .error .isADirectory
        | _ => return tree.put place (.file content)

def readFile (tree : FileTree) (home : List String) (path : FilePath) : Except FileError String :=
  match path.fault? with
  | some fault => .error fault
  | none => do
    match ← tree.target? (base home path) path.segments path.ending with
    | none => .error (if path.text = "" then .notFound else .isADirectory)
    | some place => match tree.get? place with
      | some (.file content) => if path.ending = .slash then .error .notADirectory else return content
      | some (.directory _) => .error .isADirectory
      | none => .error .notFound

/-- A file that has been found in a directory, with what comes of reading it. It is found if the system takes the path
of the directory. -/
def reading? (path content : String) : Option (String × Except FileError String) :=
  match (FilePath.ofString path).parent.fault?, (FilePath.ofString path).fault? with
  | some _, _ => none
  | none, some fault => some (path, .error fault)
  | none, none => some (path, .ok content)

/-- The files at or below a path with their own paths, ordered name by name on the way down. -/
def filesBelow (tree : FileTree) (home : List String) (text : String) : List (String × Except FileError String) :=
  let path := FilePath.ofString text
  match path.fault?, tree.walk (base home path) path.segments with
  | some _, _ => []
  | none, .ok place =>
    let found := ((tree.get? place).map files).getD []
    (found.mergeSort fun a b => !decide (b.1 < a.1)).filterMap fun (place, content) =>
      reading? (FilePath.join text ("/".intercalate place)) content
  | none, .error _ => match tree.readFile home path with
    | .ok content => [(text, .ok content)]
    | .error _ => []

end FileTree

end ResourceKinds
