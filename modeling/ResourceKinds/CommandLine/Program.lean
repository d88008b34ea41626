import ResourceKinds.CommandLine.Arguments
import ResourceKinds.CommandLine.Manifests
import ResourceKinds.Generator.Documents
import ResourceKinds.Generator.Pipeline
import ResourceKinds.Selector

namespace ResourceKinds

inductive ProgramError where
  | settings (error : SettingsError)
  | manifest (fault : ManifestFault)
  | unknownKind (kind input : String)
  | failed (error : Error)

namespace ProgramError

/-- What was being done, followed by the causes of the failure. -/
def chain : ProgramError → List String
  | .settings error => ["loading configuration", error.message]
  | .manifest (.unreadable path error) => ["reading " ++ path, error.message]
  | .manifest (.malformed path complaint) => ["parsing " ++ path, complaint.message]
  | .unknownKind kind input => ["kind " ++ kind ++ " not found under " ++ input]
  | .failed error => error.chain

def message (error : ProgramError) : String := "Error: " ++ ": ".intercalate error.chain ++ "\n"

end ProgramError

namespace AppManifest

/-- The schema of a version of a kind, from the first manifest that has a kind of that name; `none`
if there is no such manifest. -/
def findSchema (manifests : List AppManifest) (kind version : String) : Option (Except Error Synthesized) :=
  (manifests.find? fun manifest => (manifest.kind? kind).isSome).map fun manifest =>
    ((ManifestCache.kindVersionSchema manifest kind version).run .empty).value.1

private def graphLines (kind : String) : Except VersionGraphError VersionGraph → List String
  | .error error => ["  " ++ kind ++ ": " ++ error.message]
  | .ok graph =>
    ["  " ++ kind ++ " (hub " ++ graph.hub ++ ")", "    priority: " ++ ", ".intercalate graph.priority] ++
      graph.routes.map fun route => "    " ++ route.render

/-- The lines about the kinds of a manifest: their hubs, priorities and routes. -/
def versionLines (preferred : Fields String) (manifest : AppManifest) : List String :=
  manifest.appName :: (manifest.wire preferred).flatMap fun (kind, graph) => graphLines kind graph

end AppManifest

namespace Settings

/-- The generators of all documents. Apps without kinds have no documents of their own. -/
def generators (settings : Settings) (encoding : Encoding) : List (Generator CacheM AppManifest) :=
  [(Generator.definitions encoding settings.preferredVersions).filter AppManifest.hasKinds,
    (Generator.manifests encoding settings.manifestVersion).filter AppManifest.hasKinds,
    Generator.routes encoding settings.preferredVersions]

/-- Generates the documents of manifests and writes them below a directory. -/
def generate (settings : Settings) (encoding : Encoding) (around : Surroundings) (root : String)
    (manifests : List AppManifest) : FileTree × Except Error ArtifactSet :=
  let pipeline : Pipeline CacheM AppManifest :=
    ⟨settings.generators encoding, settings.collisionPolicy, pure false⟩
  let output := OutputDirectory.make around.home root settings.output.folder settings.output.listChecksums
  ((pipeline.runAndCommit manifests output.writer around.files).run .empty).value.1

end Settings

/-- The lines about a set that has been written. -/
def ArtifactSet.reportLines (set : ArtifactSet) (root : String) : List String :=
  ["Generated " ++ toString set.size ++ " artifacts in " ++ root] ++
    (set.artifacts.map fun artifact => "  " ++ artifact.path ++ "  (" ++ ", ".intercalate artifact.generators ++ ")") ++
    set.collisions.map fun collision =>
      "  ! " ++ collision.path ++ " claimed by " ++ ", ".intercalate collision.generators

namespace Command

private def linesText (lines : List String) : String := String.join (lines.map (· ++ "\n"))

/-- Runs a command: the files that it leaves, and what it shows. -/
def run (settings : Settings) (around : Surroundings) : Command → FileTree × Except ProgramError String
  | .generate input output encoding selector =>
    match AppManifest.load around input with
    | .error fault => (around.files, .error (.manifest fault))
    | .ok manifests =>
      let manifests := manifests.map (KindSelector.ofText selector).restrict
      let root := output.getD (settings.outputDirectory ("/" ++ "/".intercalate around.home))
      let (files, result) := settings.generate (encoding.getD settings.output.encoding) around root manifests
      (files, (result.map fun set => linesText (set.reportLines root)).mapError .failed)
  | .versions input =>
    (around.files, match AppManifest.load around input with
      | .error fault => .error (.manifest fault)
      | .ok manifests => .ok (linesText (manifests.flatMap (·.versionLines settings.preferredVersions))))
  | .schema input kind version =>
    (around.files, match AppManifest.load around input with
      | .error fault => .error (.manifest fault)
      | .ok manifests => match AppManifest.findSchema manifests kind version with
        | none => .error (.unknownKind kind input)
        | some (.error error) => .error (.failed error)
        | some (.ok synthesized) => .ok (synthesized.schema.toJson.pretty ++ "\n"))

end Command

/-- What a run of the program shows and leaves. -/
structure Outcome where
  status : Nat
  output : String
  errors : String
  files : FileTree

namespace Program

def usage : String :=
  "Usage: kindgen [-c FILE] generate -i DIR [-o DIR] [-f json|yaml] [-s SELECTOR]\n" ++
  "       kindgen [-c FILE] versions -i DIR\n" ++
  "       kindgen [-c FILE] schema -i DIR -k KIND -V VERSION\n"

/-- Arguments that make no sense end with status 2, and failures of a command with status 1. -/
def run (around : Surroundings) (arguments : List String) : Outcome :=
  match Invocation.ofArguments arguments with
  | .error .help => ⟨0, usage, "", around.files⟩
  | .error .misuse => ⟨2, "", usage, around.files⟩
  | .ok invocation =>
    match Settings.load around invocation.settingsFile with
    | .error error => ⟨1, "", (ProgramError.settings error).message, around.files⟩
    | .ok settings => match invocation.command.run settings around with
      | (files, .ok output) => ⟨0, output, "", files⟩
      | (files, .error error) => ⟨1, "", error.message, files⟩

end Program

end ResourceKinds
