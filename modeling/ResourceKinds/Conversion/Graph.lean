import ResourceKinds.Kind.Basic
import ResourceKinds.Version
import ResourceKinds.Warning

namespace ResourceKinds

/-- Why the versions of a kind cannot be wired. -/
inductive VersionGraphError where
  | noVersions (group kind : String)
  | duplicateVersion (group kind version : String)
  | conversionMismatch (group kind first : String) (firstEnabled : Bool) (second : String) (secondEnabled : Bool)
  | preferredVersionNotFound (group kind version : String)
deriving DecidableEq

def VersionGraphError.message : VersionGraphError → String
  | .noVersions group kind => group ++ "/" ++ kind ++ ": kind declares no versions"
  | .duplicateVersion group kind version =>
    group ++ "/" ++ kind ++ ": version " ++ version ++ " declared more than once"
  | .conversionMismatch group kind first firstEnabled second secondEnabled =>
    group ++ "/" ++ kind ++ ": conversion flag differs between " ++ first ++ " (" ++ toString firstEnabled ++
      ") and " ++ second ++ " (" ++ toString secondEnabled ++ ")"
  | .preferredVersionNotFound group kind version =>
    group ++ "/" ++ kind ++ ": preferred version " ++ version ++ " is not declared"

inductive Direction where
  | toHub | fromHub
deriving DecidableEq

namespace Direction

def key : Direction → String
  | .toHub => "toHub"
  | .fromHub => "fromHub"

def label : Direction → String
  | .toHub => "to-hub"
  | .fromHub => "from-hub"

end Direction

structure Route where
  source : String
  target : String
  direction : Direction
deriving DecidableEq

namespace Route

def render (route : Route) : String :=
  route.source ++ " -> " ++ route.target ++ " [" ++ route.direction.label ++ "]"

end Route

/-- The versions of a kind around their hub. Every other version has a route to the hub and one from it. -/
structure VersionGraph where
  group : String
  kind : String
  hub : String
  conversion : Bool
  /-- In the order of their declaration. -/
  versions : List String
deriving DecidableEq

namespace VersionGraph

/-- The order in which versions are offered to clients that ask for none: the latest declared first. -/
def priority (graph : VersionGraph) : List String := graph.versions.reverse

def contains (graph : VersionGraph) (version : String) : Bool := graph.versions.contains version

def routes (graph : VersionGraph) : List Route :=
  (graph.versions.filter (· ≠ graph.hub)).flatMap fun version =>
    [⟨version, graph.hub, .toHub⟩, ⟨graph.hub, version, .fromHub⟩]

/-- The route that joins two declared versions, if one does. -/
def route? (graph : VersionGraph) (source target : String) : Option Route :=
  if graph.contains source && graph.contains target then
    graph.routes.find? fun route => route.source = source && route.target = target
  else none

/-- The hops from one declared version to another. -/
def path? (graph : VersionGraph) (source target : String) : Option (List Route) :=
  if !graph.contains source || !graph.contains target then none
  else if source = target then some []
  else if source = graph.hub || target = graph.hub then (graph.route? source target).map fun route => [route]
  else do
    let up ← graph.route? source graph.hub
    let down ← graph.route? graph.hub target
    return [up, down]

end VersionGraph

namespace KindDefinition

/-- Each version is new, and has the conversion flag of the first one. -/
def checkVersions (kind : KindDefinition) (first : KindVersion) (seen : List String) :
    List KindVersion → Except VersionGraphError Unit
  | [] => .ok ()
  | version :: rest =>
    if seen.contains version.name then .error (.duplicateVersion kind.group kind.kind version.name)
    else if version.conversion ≠ first.conversion then
      .error (.conversionMismatch kind.group kind.kind first.name first.conversion version.name version.conversion)
    else checkVersions kind first (version.name :: seen) rest

def versionNames (kind : KindDefinition) : List String := kind.versions.map KindVersion.name

/-- The preference that counts: the given one, or else the kind's own. -/
def preference (kind : KindDefinition) (preferred : Option String) : Option String :=
  preferred.or kind.preferredVersion

/-- The hub is the preferred version, or else the last one declared. -/
def electHub (kind : KindDefinition) (last : KindVersion) (preferred : Option String) :
    Except VersionGraphError String :=
  match kind.preference preferred with
  | some version =>
    if kind.versionNames.contains version then .ok version
    else .error (.preferredVersionNotFound kind.group kind.kind version)
  | none => .ok last.name

/-- Elects the hub of a kind whose versions agree. -/
def wire (kind : KindDefinition) (preferred : Option String) : Except VersionGraphError VersionGraph :=
  match kind.versions with
  | [] => .error (.noVersions kind.group kind.kind)
  | first :: rest => do
    checkVersions kind first [] kind.versions
    let hub ← kind.electHub ((first :: rest).getLast (by simp)) preferred
    return ⟨kind.group, kind.kind, hub, first.conversion, kind.versionNames⟩

/-- A hub elected by declaration order alone deserves a warning when clients prefer another version. -/
def wireWarnings (kind : KindDefinition) (preferred : Option String) : List Warning :=
  match kind.preference preferred, kind.wire preferred with
  | none, .ok graph =>
    let highest := highestPriority? kind.versionNames
    if highest = some graph.hub then [] else [.hubNotHighest kind.group kind.kind graph.hub highest]
  | _, _ => []

def wireLogged (kind : KindDefinition) (preferred : Option String) : Logged (Except VersionGraphError VersionGraph) :=
  ⟨kind.wire preferred, kind.wireWarnings preferred⟩

/-- Two definitions of one kind as one. -/
def merge (earlier later : KindDefinition) : KindDefinition :=
  { earlier with
    versions := earlier.versions ++ later.versions
    preferredVersion := earlier.preferredVersion.or later.preferredVersion }

def sameKind (a b : KindDefinition) : Bool := a.group = b.group && a.kind = b.kind

/-- Merges a definition into the one of the same kind, or adds it at the end. -/
def mergeInto (merged : List KindDefinition) (kind : KindDefinition) : List KindDefinition :=
  match merged with
  | [] => [kind]
  | earlier :: rest =>
    if earlier.sameKind kind then earlier.merge kind :: rest else earlier :: mergeInto rest kind

/-- One definition per group and kind, in the order in which they first occur. -/
def mergeAll (kinds : List KindDefinition) : List KindDefinition := kinds.foldl mergeInto []

end KindDefinition

namespace AppManifest

/-- Wires every kind of the manifest on its own. -/
def wire (manifest : AppManifest) (preferred : Fields String) :
    List (String × Except VersionGraphError VersionGraph) :=
  (KindDefinition.mergeAll manifest.kinds).map fun kind => (kind.kind, kind.wire (preferred.lookup kind.kind))

def wireWarnings (manifest : AppManifest) (preferred : Fields String) : List Warning :=
  (KindDefinition.mergeAll manifest.kinds).flatMap fun kind => kind.wireWarnings (preferred.lookup kind.kind)

end AppManifest

end ResourceKinds
