import ResourceKinds.Schema.Synthesis
import ResourceKinds.Error

namespace ResourceKinds

/-- Schemas are ordered by version first. -/
structure SchemaKey where
  version : String
  kind : String
deriving DecidableEq

namespace SchemaKey

instance : LT SchemaKey := ⟨fun a b => a.version < b.version ∨ a.version = b.version ∧ a.kind < b.kind⟩

instance : DecidableLT SchemaKey := fun a b =>
  inferInstanceAs (Decidable (a.version < b.version ∨ a.version = b.version ∧ a.kind < b.kind))

end SchemaKey

/-- What is derived from a manifest. -/
structure ManifestView where
  appName : String
  group : String
  /-- As declared; without schemas, the trees are empty. -/
  kinds : List KindDefinition
  includesSchemas : Bool
  /-- How the synthesis of each version of each kind ended. -/
  schemas : Table SchemaKey (Except SchemaError Synthesized)

namespace ManifestView

def schema? (view : ManifestView) (kind version : String) : Option (Except SchemaError Synthesized) :=
  view.schemas.lookup ⟨version, kind⟩

/-- Every failed synthesis, in the order of the keys. -/
def schemaErrors (view : ManifestView) : List SchemaError :=
  view.schemas.values.filterMap fun
    | .error error => some error
    | .ok _ => none

end ManifestView

structure CacheEntry where
  withSchemas : Option ManifestView
  withoutSchemas : Option ManifestView
  schemas : Table SchemaKey Synthesized

namespace CacheEntry

def empty : CacheEntry := ⟨none, none, []⟩

def view? (entry : CacheEntry) (includeSchemas : Bool) : Option ManifestView :=
  if includeSchemas then entry.withSchemas else entry.withoutSchemas

def setView (entry : CacheEntry) (includeSchemas : Bool) (view : ManifestView) : CacheEntry :=
  if includeSchemas then { entry with withSchemas := some view } else { entry with withoutSchemas := some view }

end CacheEntry

/-- What has been built once is kept for its app name and used again; failures are not kept. -/
structure ManifestCache where
  /-- By app name. -/
  entries : Fields CacheEntry
  manifestBuilds : Nat
  /-- How often a synthesis was tried. -/
  schemaBuilds : Nat

abbrev CacheM := StateT ManifestCache Logged

namespace ManifestCache

def empty : ManifestCache := ⟨[], 0, 0⟩

/-- The number of app names of which something is kept. -/
def size (cache : ManifestCache) : Nat := cache.entries.length

def entry (cache : ManifestCache) (app : String) : CacheEntry := (cache.entries.lookup app).getD .empty

def setEntry (cache : ManifestCache) (app : String) (entry : CacheEntry) : ManifestCache :=
  { cache with entries := cache.entries.insert app entry }

end ManifestCache

/-- Every declared version with the name of its kind. -/
def AppManifest.declared (manifest : AppManifest) : List (String × KindVersion) :=
  manifest.kinds.flatMap fun kind => kind.versions.map fun version => (kind.kind, version)

/-- The kinds with empty trees. -/
def AppManifest.withoutTrees (manifest : AppManifest) : List KindDefinition :=
  manifest.kinds.map fun kind =>
    { kind with versions := kind.versions.map fun version => { version with schema := .empty } }

/-- The state of building a view: the schemas known so far, the outcomes, and how many schemas were
built. -/
structure ViewBuild where
  known : Table SchemaKey Synthesized
  outcomes : Table SchemaKey (Except SchemaError Synthesized)
  builds : Nat

namespace ViewBuild

/-- The outcome for one declared version; a schema that is known is not built again. -/
def step (build : ViewBuild) (declared : String × KindVersion) : Logged ViewBuild :=
  let (kind, version) := declared
  let key : SchemaKey := ⟨version.name, kind⟩
  match build.known.lookup key with
  | some schema => ⟨{ build with outcomes := build.outcomes.insert key (.ok schema) }, []⟩
  | none =>
    let outcome := version.schema.synthesize kind version.name
    let known := match outcome with
      | .ok schema => build.known.insert key schema
      | .error _ => build.known
    ⟨⟨known, build.outcomes.insert key outcome, build.builds + 1⟩, version.schema.synthesisWarnings kind version.name⟩

end ViewBuild

/-- The view of a manifest in the given group, with the schemas known afterwards and the number of
those built. -/
def AppManifest.buildView (manifest : AppManifest) (group : String) (includeSchemas : Bool)
    (known : Table SchemaKey Synthesized) : Logged (ManifestView × ViewBuild) :=
  if includeSchemas then do
    let build ← manifest.declared.foldlM ViewBuild.step ⟨known, [], 0⟩
    return (⟨manifest.appName, group, manifest.kinds, true, build.outcomes⟩, build)
  else return (⟨manifest.appName, group, manifest.withoutTrees, false, []⟩, ⟨known, [], 0⟩)

namespace ManifestCache

/-- The view of a manifest, built when it is first asked for. -/
def manifest (manifest : AppManifest) (includeSchemas : Bool) : CacheM (Except ManifestError ManifestView) :=
  fun cache =>
    match (cache.entries.lookup manifest.appName).bind (·.view? includeSchemas) with
    | some view => pure (.ok view, cache)
    | none => match manifest.resolveGroup with
      | .error error => pure (.error error, cache)
      | .ok group => do
        let entry := cache.entry manifest.appName
        let (view, build) ← manifest.buildView group includeSchemas entry.schemas
        let entry := ({ entry with schemas := build.known }).setView includeSchemas view
        return (.ok view,
          { entries := cache.entries.insert manifest.appName entry
            manifestBuilds := cache.manifestBuilds + 1
            schemaBuilds := cache.schemaBuilds + build.builds })

/-- The schema of a version of a kind, built when it is first asked for. -/
def kindVersionSchema (manifest : AppManifest) (kind version : String) : CacheM (Except Error Synthesized) :=
  fun cache =>
    let key : SchemaKey := ⟨version, kind⟩
    match (cache.entries.lookup manifest.appName).bind (·.schemas.lookup key) with
    | some schema => pure (.ok schema, cache)
    | none => match manifest.resolveGroup with
      | .error error => pure (.error (.manifest error), cache)
      | .ok _ => match manifest.kindVersion? kind version with
        | none => pure (.error (.schema (.kindVersionNotFound kind version)), cache)
        | some declared =>
          let cache := { cache with schemaBuilds := cache.schemaBuilds + 1 }
          let result : Except Error Synthesized × ManifestCache :=
            match declared.schema.synthesize kind version with
            | .error error => (.error (.schema error), cache)
            | .ok schema =>
              let entry := cache.entry manifest.appName
              (.ok schema,
                cache.setEntry manifest.appName { entry with schemas := entry.schemas.insert key schema })
          ⟨result, declared.schema.synthesisWarnings kind version⟩

end ManifestCache

end ResourceKinds
