import ResourceKinds.Document.Keyword
import ResourceKinds.Kind.Document
import ResourceKinds.Conversion.Graph
import ResourceKinds.Cache

namespace ResourceKinds

/-- A computation with a cache that may fail. -/
abbrev BuildM := ExceptT Error CacheM

namespace BuildM

def ofSchema (result : Except SchemaError α) : BuildM α := ExceptT.mk (pure (result.mapError .schema))

def ofGraph (result : Logged (Except VersionGraphError α)) : BuildM α :=
  ExceptT.mk do return (← liftM result).mapError .versionGraph

end BuildM

structure DefinedVersion where
  name : String
  served : Bool
  /-- Objects are stored in this version. -/
  storage : Bool
  schema : Json
  statusSubresource : Bool
  selectableFields : List String
  printerColumns : List PrinterColumn

structure ResourceDefinition where
  name : String
  group : String
  kind : String
  plural : String
  singular : String
  scope : Scope
  /-- Objects are converted by the kind itself. -/
  webhook : Bool
  versions : List DefinedVersion

namespace DefinedVersion

def statusProperty : String := "status"

private def unlessEmpty (name : String) (items : List Json) : List (String × Json) :=
  if items.isEmpty then [] else [(name, .array items)]

def toJson (version : DefinedVersion) : Json :=
  .object <|
    unlessEmpty "additionalPrinterColumns" (version.printerColumns.map PrinterColumn.toJson) ++
    [("name", .string version.name), ("schema", .object [("openAPIV3Schema", version.schema)])] ++
    unlessEmpty "selectableFields" (version.selectableFields.map fun path => .object [("jsonPath", .string path)]) ++
    [("served", .bool version.served), ("storage", .bool version.storage)] ++
    (if version.statusSubresource then [("subresources", .object [(statusProperty, .object [])])] else [])

end DefinedVersion

namespace StructuralSchema

/-- The first path that is not that of a selectable field. -/
def checkSelectable (schema : StructuralSchema) (kind version : String) : List String → Except SchemaError Unit
  | [] => .ok ()
  | path :: rest => match schema.selectableFlaw? path with
    | some flaw => .error (.invalidSelectableField kind version path flaw)
    | none => checkSelectable schema kind version rest

end StructuralSchema

namespace ResourceDefinition

def toJson (definition : ResourceDefinition) : Json :=
  .object [("apiVersion", .string "apiextensions.k8s.io/v1"), ("kind", .string "CustomResourceDefinition"),
    ("metadata", .object [("name", .string definition.name)]),
    ("spec", .object [
      ("conversion", .object [("strategy", .string (if definition.webhook then "Webhook" else "None"))]),
      ("group", .string definition.group),
      ("names", .object [("kind", .string definition.kind), ("listKind", .string (definition.kind ++ "List")),
        ("plural", .string definition.plural), ("singular", .string definition.singular)]),
      ("scope", .string definition.scope.name),
      ("versions", .array (definition.versions.map DefinedVersion.toJson))])]

/-- What a definition says about one version of a kind with the given hub. -/
def buildVersion (manifest : AppManifest) (kind hub : String) (version : KindVersion) : BuildM DefinedVersion := do
  let synthesized ← ExceptT.mk (ManifestCache.kindVersionSchema manifest kind version.name)
  BuildM.ofSchema (synthesized.schema.checkSelectable kind version.name version.selectableFields)
  let schema ← (Json.restateSchema synthesized.schema.toJson).mapError Error.json
  return {
    name := version.name
    served := version.served
    storage := version.name = hub
    schema := schema
    statusSubresource := synthesized.subresources.contains DefinedVersion.statusProperty
    selectableFields := version.selectableFields
    printerColumns := version.printerColumns }

/-- The definition of one kind of a manifest. -/
def build (preferred : Fields String) (manifest : AppManifest) (kind : KindDefinition) : BuildM ResourceDefinition := do
  let graph ← BuildM.ofGraph (kind.wireLogged (preferred.lookup kind.kind))
  let versions ← kind.versions.mapM (buildVersion manifest kind.kind graph.hub)
  return {
    name := kind.crdName
    group := kind.group
    kind := kind.kind
    plural := kind.pluralName
    singular := Text.lowercase kind.kind
    scope := kind.scope
    webhook := graph.conversion
    versions := versions }

end ResourceDefinition

end ResourceKinds
