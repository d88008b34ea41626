import ResourceKinds.Schema.Expansion
import ResourceKinds.Schema.Structural

namespace ResourceKinds

namespace SchemaNode

mutual

/-- The structural form of a node that refers to no component. -/
def toStructural : SchemaNode → Except SchemaError StructuralNode
  | .object properties values facets => do
    let properties ← toStructuralEach properties
    match values with
    | .none => return .object properties none facets
    | .unconstrained => return .object properties none ⟨facets.required, true, facets.annotations⟩
    | .shaped node =>
      if node.isUntyped then return .object properties none ⟨facets.required, true, facets.annotations⟩
      else return .object properties (some (← node.toStructural)) facets
  | .array none annotations => return .array none annotations
  | .array (some node) annotations => return .array (some (← node.toStructural)) annotations
  | .scalar kind annotations => return .scalar kind annotations
  | .reference name => .error (.unresolvedReference name)

def toStructuralEach : List (String × SchemaNode) → Except SchemaError (List (String × StructuralNode))
  | [] => .ok []
  | (name, node) :: rest => do
    let node ← node.toStructural
    return (name, node) :: (← toStructuralEach rest)

end

end SchemaNode

/-- The schema of one kind version. -/
structure Synthesized where
  root : String
  schema : StructuralSchema
  /-- The root properties other than the specification. -/
  subresources : List String
  /-- The components whose recursion was cut off by an open object. -/
  openMapFallbacks : List String

namespace Synthesized

/-- The schema without the root's `metadata`, which every resource has anyway. -/
def ofRoot (root : String) (cycles : List String) (properties : List (String × StructuralNode))
    (values : Option StructuralNode) (facets : ObjectFacets) : Synthesized :=
  let properties := Table.erase properties StructuralSchema.metadataProperty
  let required := facets.required.filter (· ≠ StructuralSchema.metadataProperty)
  { root := root
    schema := ⟨properties, values, ⟨required, facets.preserve, facets.annotations⟩⟩
    subresources := (Table.keys properties).filter (· ≠ StructuralSchema.specProperty)
    openMapFallbacks := cycles }

end Synthesized

namespace SchemaTree

def synthesize (tree : SchemaTree) (kind version : String) : Except SchemaError Synthesized := do
  let flat ← tree.flatten kind version
  match ← flat.node.toStructural with
  | .object properties values facets => return .ofRoot flat.root flat.cycles properties values facets
  | _ => throw (flawed (componentsPath ++ flat.root) (.rootNotObject kind version))

/-- The warnings of a synthesis are those of the expansion it begins with. -/
def synthesisWarnings (tree : SchemaTree) (kind version : String) : List Warning :=
  flattenWarnings kind version (tree.flatten kind version)

end SchemaTree

end ResourceKinds
