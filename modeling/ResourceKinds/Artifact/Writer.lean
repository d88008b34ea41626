import ResourceKinds.Artifact.Set

namespace ResourceKinds

/-- Writes whole sets to a store of type `σ`. A failure may leave the store changed. -/
structure ArtifactWriter (σ : Type) where
  write : ArtifactSet → σ → σ × Except Error Unit

/-- Files by path, and the number of sets written. -/
structure MemoryStore where
  files : Fields String
  commits : Nat
deriving DecidableEq

namespace MemoryStore

def empty : MemoryStore := ⟨[], 0⟩

def write (store : MemoryStore) (set : ArtifactSet) : MemoryStore :=
  ⟨set.artifacts.foldl (fun files artifact => files.insert artifact.path artifact.text) store.files,
    store.commits + 1⟩

def writer : ArtifactWriter MemoryStore := ⟨fun set store => (store.write set, .ok ())⟩

end MemoryStore

/-- A directory that files are written to. -/
structure OutputDirectory where
  /-- The working directory. -/
  home : List String
  root : String
  /-- The directory below the root that all files are put in; empty for the root itself. -/
  folder : String
  listChecksums : Bool
deriving DecidableEq

namespace OutputDirectory

def checksumList : String := "checksums.sha256"

/-- Slashes at either end of the folder's name mean nothing. -/
def make (home : List String) (root folder : String) (listChecksums : Bool) : OutputDirectory :=
  ⟨home, root, Text.strip '/' folder, listChecksums⟩

/-- The path of a file below the root. -/
def relative (output : OutputDirectory) (path : String) : String :=
  if output.folder = "" then path else output.folder ++ "/" ++ path

/-- Writes one file, and the directories that it lies in. -/
def writeFile (output : OutputDirectory) (path text : String) (tree : FileTree) : FileTree × Except FileError Unit :=
  let target := FilePath.ofString (FilePath.join output.root path)
  match tree.makePath output.home target.parent with
  | (tree, .error error) => (tree, .error error)
  | (tree, .ok ()) => match tree.writeFile output.home target text with
    | .ok tree => (tree, .ok ())
    | .error error => (tree, .error error)

/-- Writes files one after the other, up to the first failure. -/
def writeFiles (output : OutputDirectory) : List Artifact → FileTree → FileTree × Except FileError Unit
  | [], tree => (tree, .ok ())
  | artifact :: rest, tree =>
    match output.writeFile (output.relative artifact.path) artifact.text tree with
    | (tree, .error error) => (tree, .error error)
    | (tree, .ok ()) => output.writeFiles rest tree

def checksumLine (output : OutputDirectory) (artifact : Artifact) : String :=
  artifact.checksum.hex ++ "  " ++ output.relative artifact.path

/-- One line for each file, in code point order. -/
def checksumText (output : OutputDirectory) (set : ArtifactSet) : String :=
  "\n".intercalate ((set.artifacts.map output.checksumLine).mergeSort fun a b => !decide (b < a)) ++ "\n"

def write (output : OutputDirectory) (set : ArtifactSet) (tree : FileTree) : FileTree × Except FileError Unit :=
  match tree.makePath output.home (.ofString output.root) with
  | (tree, .error error) => (tree, .error error)
  | (tree, .ok ()) => match output.writeFiles set.artifacts tree with
    | (tree, .error error) => (tree, .error error)
    | (tree, .ok ()) =>
      if output.listChecksums then
        let target := FilePath.ofString (FilePath.join output.root checksumList)
        match tree.writeFile output.home target (output.checksumText set) with
        | .ok tree => (tree, .ok ())
        | .error error => (tree, .error error)
      else (tree, .ok ())

def writer (output : OutputDirectory) : ArtifactWriter FileTree :=
  ⟨fun set tree =>
    let (tree, result) := output.write set tree
    (tree, result.mapError .file)⟩

end OutputDirectory

end ResourceKinds
