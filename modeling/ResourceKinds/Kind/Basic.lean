import ResourceKinds.Schema.Tree
import ResourceKinds.Text.Lowercase

namespace ResourceKinds

inductive Scope where
  | cluster | namespaced
deriving DecidableEq

def Scope.name : Scope → String
  | .cluster => "Cluster"
  | .namespaced => "Namespaced"

/-- A column shown when a kind is listed. -/
structure PrinterColumn where
  name : String
  jsonPath : String
  type : String
  description : Option String
  format : Option String
  priority : Option Int
deriving DecidableEq

structure CodegenFlags where
  backend : Bool
  frontend : Bool
deriving DecidableEq

inductive AdmissionOperation where
  | create | update | delete | connect | all
deriving DecidableEq

namespace AdmissionOperation

def name : AdmissionOperation → String
  | .create => "CREATE"
  | .update => "UPDATE"
  | .delete => "DELETE"
  | .connect => "CONNECT"
  | .all => "*"

end AdmissionOperation

/-- The operations that an admission hook is called for. -/
structure AdmissionHook where
  operations : List AdmissionOperation
deriving DecidableEq

def AdmissionHook.covers (hook : AdmissionHook) (operation : AdmissionOperation) : Bool :=
  hook.operations.contains operation || hook.operations.contains .all

structure Admission where
  validation : Option AdmissionHook
  mutation : Option AdmissionHook
deriving DecidableEq

namespace Admission

def none : Admission := ⟨.none, .none⟩

def isNone (admission : Admission) : Bool := admission.validation.isNone && admission.mutation.isNone

def supportsConnect (admission : Admission) : Bool :=
  [admission.validation, admission.mutation].any fun hook => hook.any (·.covers .connect)

end Admission

structure KindVersion where
  name : String
  schema : SchemaTree
  /-- Paths of the fields by which the server filters lists. -/
  selectableFields : List String
  printerColumns : List PrinterColumn
  codegen : CodegenFlags
  admission : Admission
  /-- Whether the kind converts its objects itself; all its versions have to agree. -/
  conversion : Bool
  served : Bool
deriving DecidableEq

/-- A kind with its versions in the order of their declaration. -/
structure KindDefinition where
  group : String
  kind : String
  scope : Scope
  machineName : String
  plural : String
  versions : List KindVersion
  preferredVersion : Option String
deriving DecidableEq

namespace KindDefinition

/-- The machine name; without one of its own, the kind in lower case. -/
def effectiveMachineName (definition : KindDefinition) : String :=
  if definition.machineName.isEmpty then Text.lowercase definition.kind else definition.machineName

def pluralName (definition : KindDefinition) : String :=
  if definition.plural.isEmpty then Text.lowercase definition.kind ++ "s" else definition.plural

/-- The name of the resource definition. -/
def crdName (definition : KindDefinition) : String := definition.pluralName ++ "." ++ definition.group

def version? (definition : KindDefinition) (name : String) : Option KindVersion :=
  definition.versions.find? (·.name = name)

/-- The conversion flag of the first version. -/
def conversion (definition : KindDefinition) : Bool :=
  (definition.versions.head?.map KindVersion.conversion).getD false

end KindDefinition

/-- Why a manifest has no group. -/
inductive ManifestError where
  | emptyAppName
  | emptyGroup (app kind : String)
  | groupMismatch (app kind expected found : String)
  | noGroup (app : String)
deriving DecidableEq

def ManifestError.message : ManifestError → String
  | .emptyAppName => "Manifest has an empty app name"
  | .emptyGroup app kind => app ++ ": kind " ++ kind ++ " has an empty group"
  | .groupMismatch app kind expected found =>
    app ++ ": kind " ++ kind ++ " is in group " ++ found ++ ", manifest group is " ++ expected
  | .noGroup app => app ++ ": no group declared and no kinds to derive one from"

structure AppManifest where
  appName : String
  group : String
  kinds : List KindDefinition
deriving DecidableEq

namespace AppManifest

def hasKinds (manifest : AppManifest) : Bool := !manifest.kinds.isEmpty

/-- The manifest's own group, or that of its first kind. -/
def declaredGroup (manifest : AppManifest) : Except ManifestError String :=
  if manifest.group ≠ "" then .ok manifest.group
  else match manifest.kinds with
  | [] => .error (.noGroup manifest.appName)
  | first :: _ => if first.group = "" then .error (.emptyGroup manifest.appName first.kind) else .ok first.group

/-- The first kind that is not in the group. -/
def checkGroups (app group : String) : List KindDefinition → Except ManifestError Unit
  | [] => .ok ()
  | kind :: rest =>
    if kind.group = "" then .error (.emptyGroup app kind.kind)
    else if kind.group ≠ group then .error (.groupMismatch app kind.kind group kind.group)
    else checkGroups app group rest

/-- The one group that all kinds of the manifest are in. -/
def resolveGroup (manifest : AppManifest) : Except ManifestError String := do
  if manifest.appName = "" then throw .emptyAppName
  let group ← manifest.declaredGroup
  checkGroups manifest.appName group manifest.kinds
  return group

def kind? (manifest : AppManifest) (name : String) : Option KindDefinition :=
  manifest.kinds.find? (·.kind = name)

/-- A version of a kind, whichever of the kind's definitions declares it. -/
def kindVersion? (manifest : AppManifest) (kind version : String) : Option KindVersion :=
  (manifest.kinds.filter (·.kind = kind)).findSome? (·.version? version)

end AppManifest

end ResourceKinds
