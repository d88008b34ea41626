import ResourceKinds.Json.Printer

namespace ResourceKinds

/-- What is wrong at one place of a schema document. -/
inductive SchemaFlaw where
  | notASchema (found : Json)
  | referenceNotString
  | unsupportedType (found : Json)
  | unknownType (name : String)
  | propertiesNotObject
  | requiredNotStrings
  | requiredNotArray
  | schemasNotObject
  | noSchemas
  | rootNotObject (kind version : String)
  | keyword (complaint : String)
deriving DecidableEq

def SchemaFlaw.message : SchemaFlaw → String
  | .notASchema found => "expected a schema object, got " ++ found.compact
  | .referenceNotString => "$ref must be a string"
  | .unsupportedType found => "unsupported type declaration " ++ found.compact
  | .unknownType name => "unknown type " ++ name
  | .propertiesNotObject => "properties must be an object"
  | .requiredNotStrings => "required must list strings"
  | .requiredNotArray => "required must be an array"
  | .schemasNotObject => "must be an object"
  | .noSchemas => "missing components.schemas"
  | .rootNotObject kind version => kind ++ "/" ++ version ++ ": root schema must be an object"
  | .keyword complaint => complaint

/-- Why a path does not name a selectable field. -/
inductive FieldFlaw where
  | noLeadingDot
  | notScalar
  | notFound
deriving DecidableEq

def FieldFlaw.message : FieldFlaw → String
  | .noLeadingDot => "path must start with '.'"
  | .notScalar => "field is not a scalar"
  | .notFound => "field not found in schema"

inductive SchemaError where
  | ambiguousRoot (kind version : String) (roots : List String)
  | noRoot (kind version : String)
  | unresolvedReference (name : String)
  | invalidFormat (path : String) (flaw : SchemaFlaw)
  | kindVersionNotFound (kind version : String)
  | invalidSelectableField (kind version field : String) (flaw : FieldFlaw)
deriving DecidableEq

def SchemaError.message : SchemaError → String
  | .ambiguousRoot kind version roots =>
    kind ++ "/" ++ version ++ ": schema has more than one root component: " ++ ", ".intercalate roots
  | .noRoot kind version => kind ++ "/" ++ version ++ ": schema has no root component"
  | .unresolvedReference name => "Unresolved schema reference: " ++ name
  | .invalidFormat path flaw => "Invalid schema at " ++ path ++ ": " ++ flaw.message
  | .kindVersionNotFound kind version => "Kind version not found: " ++ kind ++ "/" ++ version
  | .invalidSelectableField kind version field flaw =>
    kind ++ "/" ++ version ++ ": invalid selectable field " ++ field ++ ": " ++ flaw.message

end ResourceKinds
