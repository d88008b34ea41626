import ResourceKinds.Schema.Node
import ResourceKinds.Schema.Error

namespace ResourceKinds

def preserveKey : String := "x-kubernetes-preserve-unknown-fields"

/-- The places where named components live; the first is the one that is written. -/
def componentsPath : String := "#/components/schemas/"

def componentPaths : List String := [componentsPath, "#/definitions/", "#/$defs/"]

/-- The rest of a text that begins with `start`. -/
def Text.dropStart? (start text : String) : Option String :=
  if start.toList.isPrefixOf text.toList then some (String.ofList (text.toList.drop start.length)) else none

/-- The component that a reference names, wherever components live. -/
def componentName (reference : String) : String :=
  (componentPaths.findSome? (Text.dropStart? · reference)).getD reference

inductive NodeKind where
  | object
  | array
  | scalar (kind : Option ScalarKind)
deriving DecidableEq

namespace NodeKind

/-- The keywords read for a node of this kind. -/
def keywords : NodeKind → List String
  | .object => ["type", "description", "nullable", "properties", "required", "additionalProperties", preserveKey]
  | .array => ["type", "description", "nullable", "items"]
  | .scalar _ => ["type", "description", "nullable"]

/-- The kind of the node with these members, which have no reference among them. -/
def ofMembers (members : Fields Json) : Except SchemaFlaw NodeKind :=
  match members.lookup "type" with
  | some (.string "object") => .ok .object
  | some (.string "array") => .ok .array
  | some (.string name) => match ScalarKind.ofName? name with
    | some kind => .ok (.scalar (some kind))
    | none => .error (.unknownType name)
  | some found => .error (.unsupportedType found)
  | none =>
    if members.contains "properties" || members.contains "additionalProperties" || members.contains preserveKey then
      .ok .object
    else if members.contains "items" then .ok .array
    else .ok (.scalar none)

end NodeKind

/-- Neither a type nor a shape: such a schema admits any value. -/
def isUnconstrained (members : Fields Json) : Bool :=
  !(["type", "properties", "items", "additionalProperties", "$ref"].any members.contains)

/-- The annotations of a node of the given kind. A description that is no text and a `nullable`
that is no truth value count as absent. -/
def Annotations.ofMembers (kind : NodeKind) (members : Fields Json) : Annotations where
  description := (members.lookup "description").bind Json.asString?
  nullable := ((members.lookup "nullable").bind Json.asBool?).getD false
  extra := members.filter fun member => !kind.keywords.contains member.1

def readRequired (members : Fields Json) : Except SchemaFlaw (List String) :=
  match members.lookup "required" with
  | none => .ok []
  | some (.array items) => match items.mapM Json.asString? with
    | some names => .ok names
    | none => .error .requiredNotStrings
  | some _ => .error .requiredNotArray

def readPreserve (members : Fields Json) : Bool :=
  ((members.lookup preserveKey).bind Json.asBool?).getD false

/-- A flaw at a path of the document. -/
def flawed (path : String) (flaw : SchemaFlaw) : SchemaError := .invalidFormat path flaw

namespace SchemaNode

mutual

/-- The node at `path` of a document. -/
def readAt (path : String) : Json → Except SchemaError SchemaNode
  | .bool true => .ok (.scalar none .empty)
  | .object members =>
    match Table.lookup members "$ref" with
    | some (.string target) => .ok (.reference (componentName target))
    | some _ => .error (flawed path .referenceNotString)
    | none => do
      let kind ← (NodeKind.ofMembers members).mapError (flawed path)
      let annotations := Annotations.ofMembers kind members
      match kind with
      | .object =>
        let properties ← readProperties path members
        let required ← (readRequired members).mapError (flawed path)
        let values ← readValues path members
        return .object properties values ⟨required, readPreserve members, annotations⟩
      | .array => return .array (← readItems path members) annotations
      | .scalar kind => return .scalar kind annotations
  | found => .error (flawed path (.notASchema found))

/-- The nodes of the `properties` among the members that are left. -/
def readProperties (path : String) : List (String × Json) → Except SchemaError (List (String × SchemaNode))
  | [] => .ok []
  | (key, value) :: rest =>
    if key = "properties" then
      match value with
      | .object properties => readEach (path ++ "/properties/") properties
      | _ => .error (flawed path .propertiesNotObject)
    else readProperties path rest

/-- A node for each member; its name ends its path. -/
def readEach (under : String) : List (String × Json) → Except SchemaError (List (String × SchemaNode))
  | [] => .ok []
  | (name, value) :: rest => do
    let node ← readAt (under ++ name) value
    return (name, node) :: (← readEach under rest)

/-- The map shape that `additionalProperties` gives. -/
def readValues (path : String) : List (String × Json) → Except SchemaError (MapValues SchemaNode)
  | [] => .ok .none
  | (key, value) :: rest =>
    if key = "additionalProperties" then
      match value with
      | .bool false => .ok .none
      | .bool true => .ok .unconstrained
      | .object members =>
        if isUnconstrained members then .ok .unconstrained
        else (readAt (path ++ "/additionalProperties") (.object members)).map .shaped
      | other => (readAt (path ++ "/additionalProperties") other).map .shaped
    else readValues path rest

def readItems (path : String) : List (String × Json) → Except SchemaError (Option SchemaNode)
  | [] => .ok none
  | (key, value) :: rest =>
    if key = "items" then (readAt (path ++ "/items") value).map some else readItems path rest

end

def read (document : Json) : Except SchemaError SchemaNode := readAt "#" document

mutual

def toJson : SchemaNode → Json
  | .reference name => .object [("$ref", .string (componentsPath ++ name))]
  | .object properties values facets =>
    let members : Fields Json := [("type", .string "object")]
    let members := if properties.isEmpty then members
      else members.insert "properties" (.object (toJsonEach properties))
    let members := if facets.required.isEmpty then members
      else members.insert "required" (Json.strings facets.required)
    let members := match values with
      | .none => members
      | .unconstrained => members.insert "additionalProperties" (.object [])
      | .shaped node => members.insert "additionalProperties" node.toJson
    let members := if facets.preserve then members.insert preserveKey (.bool true) else members
    .object (facets.annotations.write members)
  | .array items annotations =>
    let members : Fields Json := [("type", .string "array")]
    let members := match items with
      | none => members
      | some node => members.insert "items" node.toJson
    .object (annotations.write members)
  | .scalar kind annotations =>
    let members : Fields Json := match kind with
      | none => []
      | some kind => [("type", .string kind.name)]
    .object (annotations.write members)

def toJsonEach : List (String × SchemaNode) → List (String × Json)
  | [] => []
  | (name, node) :: rest => (name, node.toJson) :: toJsonEach rest

end

end SchemaNode

end ResourceKinds
