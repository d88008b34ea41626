import ResourceKinds.Schema.Structural

namespace ResourceKinds

namespace StructuralNode

/-- The node that prunes the member of this name, if the name is declared or given a shape. -/
def memberNode? (properties : List (String × StructuralNode)) (values : Option StructuralNode) (name : String) :
    Option StructuralNode :=
  (Table.lookup properties name).or values

mutual

def prune (node : StructuralNode) : Json → Json
  | .object members => match node with
    | .object properties values facets =>
      .object (pruneMembers properties values (fun _ => facets.preserve) members)
    | _ => .object members
  | .array elements => match node with
    | .array (some items) _ => .array (items.pruneItems elements)
    | _ => .array elements
  | value => value

def pruneItems (node : StructuralNode) : List Json → List Json
  | [] => []
  | item :: rest => node.prune item :: node.pruneItems rest

/-- The members that are declared, have a shape or are to be kept, as all of an open object are. -/
def pruneMembers (properties : List (String × StructuralNode)) (values : Option StructuralNode)
    (keep : String → Bool) : List (String × Json) → List (String × Json)
  | [] => []
  | (name, value) :: rest => match memberNode? properties values name with
    | some node => (name, node.prune value) :: pruneMembers properties values keep rest
    | none =>
      if keep name then (name, value) :: pruneMembers properties values keep rest
      else pruneMembers properties values keep rest

end

end StructuralNode

namespace StructuralSchema

/-- Members that every stored object has, whatever its schema. -/
def typeMembers : List String := ["apiVersion", "kind", "metadata"]

/-- Prunes a whole object; its type members stay. -/
def prune (schema : StructuralSchema) : Json → Json
  | .object members =>
    .object (StructuralNode.pruneMembers schema.properties schema.values
      (fun name => schema.facets.preserve || typeMembers.contains name) members)
  | value => value

end StructuralSchema

end ResourceKinds
