import ResourceKinds.Schema.Reader
import ResourceKinds.Text.Split

namespace ResourceKinds

/-- What a schema becomes once references are gone and open maps are marked. -/
inductive StructuralNode where
  | object (properties : List (String × StructuralNode)) (values : Option StructuralNode) (facets : ObjectFacets)
  | array (items : Option StructuralNode) (annotations : Annotations)
  | scalar (kind : Option ScalarKind) (annotations : Annotations)

namespace StructuralNode

instance : Inhabited StructuralNode := ⟨.scalar none .empty⟩

mutual

def toJson : StructuralNode → Json
  | .object properties values facets =>
    let members : Fields Json := [("type", .string "object")]
    let members := if properties.isEmpty then members
      else members.insert "properties" (.object (toJsonEach properties))
    let members := if facets.required.isEmpty then members
      else members.insert "required" (Json.strings facets.required)
    let members := match values with
      | none => members
      | some node => members.insert "additionalProperties" node.toJson
    let members := if facets.preserve then members.insert preserveKey (.bool true) else members
    .object (facets.annotations.write members)
  | .array items annotations =>
    let members : Fields Json := [("type", .string "array")]
    let members := match items with
      | none => members
      | some node => members.insert "items" node.toJson
    .object (annotations.write members)
  | .scalar kind annotations =>
    let members : Fields Json := match kind with
      | none => []
      | some kind => [("type", .string kind.name)]
    .object (annotations.write members)

def toJsonEach : List (String × StructuralNode) → List (String × Json)
  | [] => []
  | (name, node) :: rest => (name, node.toJson) :: toJsonEach rest

end

/-- The property of an object node. -/
def property? : StructuralNode → String → Option StructuralNode
  | .object properties _ _, name => Table.lookup properties name
  | _, _ => none

/-- The node reached by following properties. -/
def follow? (node : StructuralNode) : List String → Option StructuralNode
  | [] => some node
  | segment :: rest => match node.property? segment with
    | none => none
    | some next => next.follow? rest

/-- The node at a dotted path; empty segments are skipped. -/
def lookup? (node : StructuralNode) (path : String) : Option StructuralNode :=
  node.follow? ((Text.split '.' path).filter (!·.isEmpty))

end StructuralNode

/-- The structural schema of a whole resource: an object without a `metadata` property. -/
structure StructuralSchema where
  properties : List (String × StructuralNode)
  values : Option StructuralNode
  facets : ObjectFacets

namespace StructuralSchema

def specProperty : String := "spec"

def metadataProperty : String := "metadata"

def node (schema : StructuralSchema) : StructuralNode :=
  .object schema.properties schema.values schema.facets

def propertiesJson (schema : StructuralSchema) : Json := .object (StructuralNode.toJsonEach schema.properties)

/-- The document that a resource definition holds for a version. -/
def toJson (schema : StructuralSchema) : Json :=
  .object <|
    [("properties", schema.propertiesJson)] ++
    (if Table.contains schema.properties specProperty then [("required", Json.strings [specProperty])] else []) ++
    [("type", .string "object")] ++
    (if schema.facets.preserve then [(preserveKey, .bool true)] else [])

/-- The node at a dotted path, which may begin with dots. Only the first segment may not be empty. -/
def lookup? (schema : StructuralSchema) (path : String) : Option StructuralNode :=
  let (first, rest) := Text.cut '.' (Text.dropLeading '.' path)
  (Table.lookup schema.properties first).bind (·.lookup? rest)

/-- What keeps a path from being that of a selectable field. -/
def selectableFlaw? (schema : StructuralSchema) (path : String) : Option FieldFlaw :=
  if path.toList.head? ≠ some '.' then some .noLeadingDot
  else match schema.lookup? path with
  | some (.scalar _ _) => none
  | some _ => some .notScalar
  | none => some .notFound

end StructuralSchema

end ResourceKinds
