import ResourceKinds.Checksum
import ResourceKinds.Warning
import ResourceKinds.Error

namespace ResourceKinds

structure Artifact where
  path : String
  /-- What the file holds. Files may hold any bytes, but all that is generated is text. -/
  text : String
  checksum : Checksum
  /-- The generators that made this text for this path. -/
  generators : List String
deriving DecidableEq

namespace Artifact

def ofText (path text : String) : Artifact := ⟨path, text, .ofText text, []⟩

/-- The file as the work of the given generators alone. -/
def stamp (artifact : Artifact) (names : List String) : Artifact := { artifact with generators := names }

/-- The names followed by those that are new to them. -/
def addNames (names : List String) : List String → List String
  | [] => names
  | name :: rest => addNames (if names.contains name then names else names ++ [name]) rest

def credit (artifact : Artifact) (names : List String) : Artifact :=
  { artifact with generators := addNames artifact.generators names }

end Artifact

/-- What happens to a file that collides with an earlier one. -/
inductive CollisionPolicy where
  /-- It is refused. -/
  | error
  /-- It is left out, and the collision is recorded. -/
  | warn
deriving DecidableEq

namespace CollisionPolicy

def name : CollisionPolicy → String
  | .error => "error"
  | .warn => "warn"

def decoder : Json.Decoder CollisionPolicy :=
  Json.Decoder.choice ([.error, .warn].map fun policy => (policy.name, policy))

end CollisionPolicy

structure Collision where
  path : String
  generators : List String
deriving DecidableEq

/-- Generated files in the order in which they were made, one for each path: the first one. A later file of the same
content only adds the names of its generators, and one of another content collides. -/
structure ArtifactSet where
  artifacts : List Artifact
  collisions : List Collision
deriving DecidableEq

namespace ArtifactSet

def empty : ArtifactSet := ⟨[], []⟩

def size (set : ArtifactSet) : Nat := set.artifacts.length

def get? (set : ArtifactSet) (path : String) : Option Artifact := set.artifacts.find? (·.path = path)

def paths (set : ArtifactSet) : List String := set.artifacts.map Artifact.path

/-- The generators that claim a path, when a file of other content is already there. -/
def claimants? (set : ArtifactSet) (artifact : Artifact) : Option (List String) :=
  match set.get? artifact.path with
  | none => none
  | some earlier =>
    if earlier.checksum = artifact.checksum then none else some (earlier.generators ++ artifact.generators)

/-- The set with a file that does not collide. -/
def add (set : ArtifactSet) (artifact : Artifact) : ArtifactSet :=
  match set.get? artifact.path with
  | none => { set with artifacts := set.artifacts ++ [artifact] }
  | some _ =>
    { set with artifacts := set.artifacts.map fun earlier =>
        if earlier.path = artifact.path then earlier.credit artifact.generators else earlier }

def insert (set : ArtifactSet) (policy : CollisionPolicy) (artifact : Artifact) :
    Except GeneratorError ArtifactSet :=
  match set.claimants? artifact, policy with
  | none, _ => .ok (set.add artifact)
  | some generators, .error => .error (.pathCollision artifact.path generators)
  | some generators, .warn => .ok { set with collisions := set.collisions ++ [⟨artifact.path, generators⟩] }

/-- A collision that is only recorded deserves a warning. -/
def insertWarnings (set : ArtifactSet) (policy : CollisionPolicy) (artifact : Artifact) : List Warning :=
  match set.claimants? artifact, policy with
  | some generators, .warn => [.pathCollision artifact.path generators]
  | _, _ => []

def insertLogged (set : ArtifactSet) (policy : CollisionPolicy) (artifact : Artifact) :
    Logged (Except GeneratorError ArtifactSet) :=
  ⟨set.insert policy artifact, set.insertWarnings policy artifact⟩

/-- Inserts files one after the other, up to the first one that is refused. -/
def insertAll (set : ArtifactSet) (policy : CollisionPolicy) :
    List Artifact → Logged (Except GeneratorError ArtifactSet)
  | [] => pure (.ok set)
  | artifact :: rest => do
    match ← set.insertLogged policy artifact with
    | .error error => return .error error
    | .ok set => set.insertAll policy rest

end ArtifactSet

end ResourceKinds
