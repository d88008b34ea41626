import ResourceKinds.Artifact.Set
import ResourceKinds.Document.Manifest
import ResourceKinds.Encoding
import ResourceKinds.Toml.Printer

namespace ResourceKinds

structure OutputSettings where
  /-- The directory that files are written to. -/
  directory : String
  encoding : Encoding
  /-- The directory below it that all files are put in. -/
  folder : String
  listChecksums : Bool
deriving DecidableEq

/-- The hub of one kind. -/
structure PreferredVersion where
  kind : String
  version : String
deriving DecidableEq

structure Settings where
  output : OutputSettings
  /-- The version that manifest documents are marked with. -/
  manifestVersion : String
  collisionPolicy : CollisionPolicy
  preferred : List PreferredVersion
deriving DecidableEq

namespace Settings

def default : Settings where
  output := ⟨"generated", .json, "", true⟩
  manifestVersion := ManifestDocument.defaultApiVersion
  collisionPolicy := .error
  preferred := []

/-- The hub by kind; of two entries for one kind the later one counts. -/
def preferredVersions (settings : Settings) : Fields String :=
  Table.ofList (settings.preferred.map fun entry => (entry.kind, entry.version))

/-- The directory that files are written to, given the working directory. -/
def outputDirectory (settings : Settings) (workingDirectory : String) : String :=
  FilePath.join workingDirectory settings.output.directory

private def outputEntries (settings : Settings) : List (String × Json) :=
  [("dir", .string settings.output.directory), ("encoding", .string settings.output.encoding.extension),
    ("path_prefix", .string settings.output.folder), ("write_checksums", .bool settings.output.listChecksums)]

private def manifestEntries (settings : Settings) : List (String × Json) :=
  [("api_version", .string settings.manifestVersion)]

private def pipelineEntries (settings : Settings) : List (String × Json) :=
  [("collision_policy", .string settings.collisionPolicy.name)]

private def preferredEntries (entry : PreferredVersion) : List (String × Json) :=
  [("kind", .string entry.kind), ("version", .string entry.version)]

def toJson (settings : Settings) : Json :=
  let preferred := settings.preferred.map fun entry => .object (preferredEntries entry)
  .object [
    ("conversion", .object [("preferred", .array preferred)]),
    ("manifest", .object settings.manifestEntries),
    ("output", .object settings.outputEntries),
    ("pipeline", .object settings.pipelineEntries)]

/-- The text of a file that holds the settings. -/
def save (settings : Settings) : String :=
  let conversion : List Toml.Section :=
    if settings.preferred.isEmpty then [⟨"[conversion]", [("preferred", .array [])]⟩]
    else settings.preferred.map fun entry => ⟨"[[conversion.preferred]]", preferredEntries entry⟩
  Toml.printSections <|
    [⟨"[output]", settings.outputEntries⟩, ⟨"[manifest]", settings.manifestEntries⟩,
      ⟨"[pipeline]", settings.pipelineEntries⟩] ++ conversion

end Settings

end ResourceKinds
