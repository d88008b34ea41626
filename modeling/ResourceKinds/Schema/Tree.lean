import ResourceKinds.Schema.Reader

namespace ResourceKinds

structure SchemaTree where
  components : List (String × SchemaNode)
deriving DecidableEq, Inhabited

namespace SchemaTree

def empty : SchemaTree := ⟨[]⟩

def names (tree : SchemaTree) : List String := Table.keys tree.components

def get? (tree : SchemaTree) (name : String) : Option SchemaNode := Table.lookup tree.components name

/-- The components below `components.schemas`; an empty object is an empty tree. -/
def read (document : Json) : Except SchemaError SchemaTree :=
  match (document.get? "components").bind (·.get? "schemas") with
  | some (.object schemas) => (SchemaNode.readEach componentsPath schemas).map SchemaTree.mk
  | some _ => .error (flawed "#/components/schemas" .schemasNotObject)
  | none => if document = .object [] then .ok .empty else .error (flawed "#" .noSchemas)

def toJson (tree : SchemaTree) : Json :=
  .object [("components", .object [("schemas", .object (SchemaNode.toJsonEach tree.components))])]

/-- The components that another component refers to. -/
def referenced (tree : SchemaTree) : List String :=
  tree.components.flatMap fun (name, node) => node.references.filter (· ≠ name)

/-- The components that no other component refers to. -/
def roots (tree : SchemaTree) : List String := tree.names.filter fun name => !tree.referenced.contains name

end SchemaTree

end ResourceKinds
