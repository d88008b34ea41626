import ResourceKinds.Kind.Document
import ResourceKinds.Settings.Source

namespace ResourceKinds

/-- A file that no manifest could be taken from, and why. -/
inductive ManifestFault where
  | unreadable (path : String) (error : FileError)
  | malformed (path : String) (complaint : Json.Complaint)
deriving DecidableEq

namespace AppManifest

/-- How a manifest is read from files with an extension. -/
def readers : List (String × (String → Except Json.Complaint AppManifest)) :=
  [("json", Json.decodeText decoder), ("yaml", Yaml.decode decoder), ("yml", Yaml.decode decoder)]

/-- The manifest in a file. Files with other extensions hold none. -/
def ofFile (path : String) (content : Except FileError String) : Except ManifestFault (Option AppManifest) :=
  match ((FilePath.ofString path).extension?).bind (Table.lookup readers) with
  | none => .ok none
  | some read => match content with
    | .error error => .error (.unreadable path error)
    | .ok content => ((read content).map some).mapError (.malformed path)

/-- All manifests at or below a path, in the order of their files. -/
def load (around : Surroundings) (path : String) : Except ManifestFault (List AppManifest) := do
  let found ← (around.files.filesBelow around.home path).mapM fun (path, content) => ofFile path content
  return found.filterMap id

end AppManifest

end ResourceKinds
