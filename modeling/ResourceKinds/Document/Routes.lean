import ResourceKinds.Conversion.Graph
import ResourceKinds.Error

namespace ResourceKinds

structure KindRoutes where
  app : String
  graph : VersionGraph
deriving DecidableEq

namespace Route

def toJson (route : Route) : Json :=
  .object [("from", .string route.source), ("to", .string route.target), ("direction", .string route.direction.key)]

end Route

namespace KindRoutes

def toJson (routes : KindRoutes) : Json :=
  .object [("app", .string routes.app), ("group", .string routes.graph.group), ("kind", .string routes.graph.kind),
    ("hub", .string routes.graph.hub), ("conversion", .bool routes.graph.conversion),
    ("priority", Json.strings routes.graph.priority), ("routes", .array (routes.graph.routes.map Route.toJson))]

/-- The kinds of one manifest. The whole manifest is wired before the first failure counts. -/
def ofManifest (preferred : Fields String) (manifest : AppManifest) : Logged (Except VersionGraphError (List KindRoutes)) :=
  ⟨(manifest.wire preferred).mapM fun (_, graph) => graph.map fun graph => ⟨manifest.appName, graph⟩,
    manifest.wireWarnings preferred⟩

/-- The kinds of all manifests, up to the first manifest with a kind that cannot be wired. -/
def build (preferred : Fields String) : List AppManifest → Logged (Except VersionGraphError (List KindRoutes))
  | [] => pure (.ok [])
  | manifest :: rest => do
    match ← ofManifest preferred manifest with
    | .error error => return .error error
    | .ok routes => return (← build preferred rest).map (routes ++ ·)

end KindRoutes

end ResourceKinds
