import ResourceKinds.Generator.Basic
import ResourceKinds.Document.Manifest
import ResourceKinds.Document.Routes
import ResourceKinds.Encoding

namespace ResourceKinds.Generator

/-- The path of a document without its extension, and its text. -/
def document (encoding : Encoding) (place : String) (content : Json) : Artifact :=
  .ofText (place ++ "." ++ encoding.extension) (encoding.render content)

def definitionPlace (kind : KindDefinition) : String := "crd/" ++ kind.crdName

def manifestPlace (manifest : AppManifest) : String := "manifests/" ++ manifest.appName

def routesPlace : String := "conversions"

/-- The definition of each kind of a manifest. -/
def definitions (encoding : Encoding) (preferred : Fields String) : Generator CacheM AppManifest where
  name := "crd"
  generation := .oneToMany fun manifest =>
    (KindDefinition.mergeAll manifest.kinds).mapM fun kind => do
      let definition ← ResourceDefinition.build preferred manifest kind
      return document encoding (definitionPlace kind) definition.toJson

/-- The document of each manifest. -/
def manifests (encoding : Encoding) (apiVersion : String) : Generator CacheM AppManifest where
  name := "manifest"
  generation := .oneToOne fun manifest => do
    let content ← ManifestDocument.build apiVersion manifest
    return some (document encoding (manifestPlace manifest) content.toJson)

/-- One list of the conversions of all manifests, unless there are no manifests at all. -/
def routes (encoding : Encoding) (preferred : Fields String) : Generator CacheM AppManifest where
  name := "routes"
  generation := .manyToOne fun manifests => do
    if manifests.isEmpty then return none
    let routes ← BuildM.ofGraph (KindRoutes.build preferred manifests)
    return some (document encoding routesPlace (.array (routes.map KindRoutes.toJson)))

end ResourceKinds.Generator
