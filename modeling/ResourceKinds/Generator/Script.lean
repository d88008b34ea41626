import ResourceKinds.Generator.Pipeline
import ResourceKinds.Kind.Basic

namespace ResourceKinds

/-- A file with marks for the app name and the file's number, a failure, or a request to stop the run. -/
structure GeneratorScript where
  name : String
  /-- The path and the text of the files; without it there are none. -/
  content : Option (String × String)
  /-- How many files a generator of many files makes of one input. -/
  count : Nat
  fails : Bool
  cancels : Bool
deriving DecidableEq

namespace GeneratorScript

/-- The file with the given number. -/
def file (app : String) (number : Nat) (path text : String) : Artifact :=
  .ofText ((path.replace "\x7bapp\x7d" app).replace "\x7bi\x7d" (toString number)) (text.replace "\x7bapp\x7d" app)

variable {m : Type → Type} [Monad m]

/-- Runs the script for an app name. -/
def run (script : GeneratorScript) (app : String) (count : Nat) : ExceptT Error (CancellableT m) (List Artifact) := do
  if script.cancels then liftM (CancelFlag.raise : CancellableT m Unit)
  if script.fails then throw (.schema (.kindVersionNotFound app "v0"))
  return match script.content with
    | none => []
    | some (path, text) => (List.range count).map fun number => file app number path text

/-- The generator of a shape. One of all inputs takes their app names together. -/
def generator (script : GeneratorScript) (shape : GeneratorShape) : Generator (CancellableT m) AppManifest where
  name := script.name
  generation := match shape with
    | .oneToOne => .oneToOne fun manifest => do return (← script.run manifest.appName 1).head?
    | .oneToMany => .oneToMany fun manifest => script.run manifest.appName script.count
    | .manyToOne => .manyToOne fun manifests => do
      return (← script.run (",".intercalate (manifests.map AppManifest.appName)) 1).head?

end GeneratorScript

end ResourceKinds
