import ResourceKinds.Schema.Error
import ResourceKinds.Conversion.Graph
import ResourceKinds.FileTree
import ResourceKinds.Json.Decoder

namespace ResourceKinds

/-- Why an object could not be converted. -/
inductive ConversionError where
  | notRegistered (group kind : String)
  | unknownVersion (kind version : String)
  | missingTypeMember (name : String)
  | codec (message : String)
  | converter (message : String)
deriving DecidableEq

def ConversionError.message : ConversionError → String
  | .notRegistered group kind => "Kind " ++ group ++ "/" ++ kind ++ " is not registered for conversion"
  | .unknownVersion kind version => "Kind " ++ kind ++ " has no version " ++ version
  | .missingTypeMember name => "Object is missing " ++ name
  | .codec message => "Codec error: " ++ message
  | .converter message => "Converter error: " ++ message

mutual

inductive Error where
  | schema (error : SchemaError)
  | versionGraph (error : VersionGraphError)
  | manifest (error : ManifestError)
  | generator (error : GeneratorError)
  | conversion (error : ConversionError)
  | file (error : FileError)
  | json (complaint : Json.Complaint)

/-- Why a batch of generators gave nothing. -/
inductive GeneratorError where
  | failed (generator : String) (cause : Error)
  | pathCollision (path : String) (generators : List String)
  | cancelled (generator : String)

end

mutual

def Error.message : Error → String
  | .schema error => error.message
  | .versionGraph error => error.message
  | .manifest error => error.message
  | .generator error => error.message
  | .conversion error => error.message
  | .file error => "IO error: " ++ error.message
  | .json complaint => "JSON error: " ++ complaint.message

def GeneratorError.message : GeneratorError → String
  | .failed generator cause => "Generator " ++ generator ++ " failed: " ++ cause.message
  | .pathCollision path generators =>
    "Path " ++ path ++ " claimed by multiple generators: " ++ ", ".intercalate generators
  | .cancelled generator => "Run cancelled before generator " ++ generator

end

mutual

/-- The message followed by those of the causes behind it. -/
def Error.chain : Error → List String
  | .schema error => [error.message]
  | .versionGraph error => [error.message]
  | .manifest error => [error.message]
  | .generator error => error.chain
  | .conversion error => [error.message]
  | .file error => ["IO error: " ++ error.message, error.message]
  | .json complaint => ["JSON error: " ++ complaint.message, complaint.message]

def GeneratorError.chain : GeneratorError → List String
  | .failed generator cause => ("Generator " ++ generator ++ " failed: " ++ cause.message) :: cause.chain
  | .pathCollision path generators => [(GeneratorError.pathCollision path generators).message]
  | .cancelled generator => [(GeneratorError.cancelled generator).message]

end

end ResourceKinds
