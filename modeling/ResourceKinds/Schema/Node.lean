import ResourceKinds.Json.Basic

namespace ResourceKinds

inductive ScalarKind where
  | string | integer | number | boolean
deriving DecidableEq

namespace ScalarKind

def name : ScalarKind → String
  | .string => "string"
  | .integer => "integer"
  | .number => "number"
  | .boolean => "boolean"

def ofName? : String → Option ScalarKind
  | "string" => some .string
  | "integer" => some .integer
  | "number" => some .number
  | "boolean" => some .boolean
  | _ => none

theorem ofName?_name (kind : ScalarKind) : ofName? kind.name = some kind := by
  cases kind <;> rfl

end ScalarKind

/-- Keywords carried along unchanged. -/
structure Annotations where
  description : Option String
  nullable : Bool
  extra : Fields Json
deriving DecidableEq

namespace Annotations

def empty : Annotations := ⟨none, false, []⟩

/-- The keywords written over those of `members`. -/
def write (annotations : Annotations) (members : Fields Json) : Fields Json :=
  let members := match annotations.description with
    | some text => members.insert "description" (.string text)
    | none => members
  let members := if annotations.nullable then members.insert "nullable" (.bool true) else members
  annotations.extra.foldl (fun members extra => members.insert extra.1 extra.2) members

end Annotations

/-- What an object says about itself, its members apart. -/
structure ObjectFacets where
  required : List String
  preserve : Bool
  annotations : Annotations
deriving DecidableEq

namespace ObjectFacets

/-- The facets of an object that accepts any members. -/
def openMap : ObjectFacets := ⟨[], true, .empty⟩

end ObjectFacets

/-- What the members of an object without a property of their name look like. -/
inductive MapValues (α : Type) where
  | none
  /-- Any value is admitted. -/
  | unconstrained
  | shaped (node : α)
deriving DecidableEq

/-- The shape of one version of one kind. Keywords without a meaning here are kept among the annotations. -/
inductive SchemaNode where
  | object (properties : List (String × SchemaNode)) (values : MapValues SchemaNode) (facets : ObjectFacets)
  | array (items : Option SchemaNode) (annotations : Annotations)
  | scalar (kind : Option ScalarKind) (annotations : Annotations)
  | reference (name : String)

namespace SchemaNode

instance : Inhabited SchemaNode := ⟨.scalar none .empty⟩

/-- An object that accepts any members. -/
def openMap : SchemaNode := .object [] .none .openMap

def isUntyped : SchemaNode → Bool
  | .scalar none _ => true
  | _ => false

mutual

/-- The components referred to, in the order of a walk through properties, map values and items. -/
def references : SchemaNode → List String
  | .object properties .none _ => referencesOf properties
  | .object properties .unconstrained _ => referencesOf properties
  | .object properties (.shaped node) _ => referencesOf properties ++ node.references
  | .array (some items) _ => items.references
  | .array none _ => []
  | .scalar _ _ => []
  | .reference name => [name]

def referencesOf : List (String × SchemaNode) → List String
  | [] => []
  | (_, node) :: rest => node.references ++ referencesOf rest

end

mutual

private def nodeDecEq : (a b : SchemaNode) → Decidable (a = b)
  | .object ps v f, b => match b with
    | .object qs w g =>
      if facets : f = g then
        match propertiesDecEq ps qs, valuesDecEq v w with
        | isTrue same, isTrue shape => isTrue (by rw [same, shape, facets])
        | isFalse differ, _ => isFalse (by simp [differ])
        | _, isFalse differ => isFalse (by simp [differ])
      else isFalse (by simp [facets])
    | .array _ _ | .scalar _ _ | .reference _ => isFalse (by simp)
  | .array items a, b => match b with
    | .array others c =>
      if annotations : a = c then
        match itemsDecEq items others with
        | isTrue same => isTrue (by rw [same, annotations])
        | isFalse differ => isFalse (by simp [differ])
      else isFalse (by simp [annotations])
    | .object _ _ _ | .scalar _ _ | .reference _ => isFalse (by simp)
  | .scalar k a, b => match b with
    | .scalar l c => decidable_of_iff (k = l ∧ a = c) (by simp)
    | .object _ _ _ | .array _ _ | .reference _ => isFalse (by simp)
  | .reference n, b => match b with
    | .reference m => decidable_of_iff (n = m) (by simp)
    | .object _ _ _ | .array _ _ | .scalar _ _ => isFalse (by simp)

private def itemsDecEq : (a b : Option SchemaNode) → Decidable (a = b)
  | none, none => isTrue rfl
  | none, some _ => isFalse (by simp)
  | some _, none => isFalse (by simp)
  | some x, some y => match nodeDecEq x y with
    | isTrue same => isTrue (by rw [same])
    | isFalse differ => isFalse (by simp [differ])

private def valuesDecEq : (a b : MapValues SchemaNode) → Decidable (a = b)
  | .none, b => match b with
    | .none => isTrue rfl
    | .unconstrained | .shaped _ => isFalse (by simp)
  | .unconstrained, b => match b with
    | .unconstrained => isTrue rfl
    | .none | .shaped _ => isFalse (by simp)
  | .shaped x, b => match b with
    | .shaped y => match nodeDecEq x y with
      | isTrue same => isTrue (by rw [same])
      | isFalse differ => isFalse (by simp [differ])
    | .none | .unconstrained => isFalse (by simp)

private def propertiesDecEq : (a b : List (String × SchemaNode)) → Decidable (a = b)
  | [], [] => isTrue rfl
  | [], _ :: _ => isFalse (by simp)
  | _ :: _, [] => isFalse (by simp)
  | (k, x) :: xs, (l, y) :: ys =>
    if key : k = l then match nodeDecEq x y, propertiesDecEq xs ys with
      | isTrue head, isTrue tail => isTrue (by rw [key, head, tail])
      | isFalse head, _ => isFalse (by simp [head])
      | _, isFalse tail => isFalse (by simp [tail])
    else isFalse (by simp [key])

end

instance : DecidableEq SchemaNode := nodeDecEq

end SchemaNode

end ResourceKinds
