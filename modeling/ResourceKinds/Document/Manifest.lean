import ResourceKinds.Document.Definition

namespace ResourceKinds

structure ListedVersion where
  name : String
  /-- The properties of the root. -/
  schema : Json
  selectableFields : List String
  admission : Admission

structure ListedKind where
  kind : String
  scope : Scope
  conversion : Bool
  versions : List ListedVersion

structure ManifestDocument where
  apiVersion : String
  appName : String
  group : String
  kinds : List ListedKind

namespace ListedVersion

def toJson (version : ListedVersion) : Json :=
  .object <|
    [("name", .string version.name), ("schema", version.schema),
      ("selectableFields", Json.strings version.selectableFields)] ++
    (if version.admission.isNone then [] else [("admission", version.admission.toJson)])

def build (view : ManifestView) (kind : String) (version : KindVersion) : Except SchemaError ListedVersion := do
  let schema ← match view.schema? kind version.name with
    | none => pure .null
    | some outcome => outcome.map fun synthesized => synthesized.schema.propertiesJson
  return ⟨version.name, schema, version.selectableFields, version.admission⟩

end ListedVersion

namespace ListedKind

def toJson (kind : ListedKind) : Json :=
  .object [("kind", .string kind.kind), ("scope", .string kind.scope.name), ("conversion", .bool kind.conversion),
    ("versions", .array (kind.versions.map ListedVersion.toJson))]

def build (view : ManifestView) (kind : KindDefinition) : BuildM ListedKind := do
  let graph ← BuildM.ofGraph (kind.wireLogged none)
  let versions ← BuildM.ofSchema (kind.versions.mapM (ListedVersion.build view kind.kind))
  return ⟨kind.kind, kind.scope, graph.conversion, versions⟩

end ListedKind

namespace ManifestDocument

def defaultApiVersion : String := "apps.kindgen.dev/v1alpha1"

def toJson (document : ManifestDocument) : Json :=
  .object [("apiVersion", .string document.apiVersion), ("kind", .string "AppManifest"),
    ("metadata", .object [("name", .string document.appName)]),
    ("spec", .object [("appName", .string document.appName), ("group", .string document.group),
      ("kinds", .array (document.kinds.map ListedKind.toJson))])]

def build (apiVersion : String) (manifest : AppManifest) : BuildM ManifestDocument := do
  let view ← ExceptT.mk do return (← ManifestCache.manifest manifest true).mapError Error.manifest
  let kinds ← (KindDefinition.mergeAll view.kinds).mapM (ListedKind.build view)
  return ⟨apiVersion, view.appName, view.group, kinds⟩

end ManifestDocument

end ResourceKinds
