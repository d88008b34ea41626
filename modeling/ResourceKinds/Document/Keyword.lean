import ResourceKinds.Json.Decoder

namespace ResourceKinds

/-- What the value of a keyword looks like. -/
inductive KeywordType where
  | text | flag | count | number | any
  | values | texts
  | schema | schemas | schemasByName
  | schemaOrFlag | schemaOrSchemas | schemasOrTextsByName
  | documentation | rules
deriving DecidableEq

namespace KeywordType

def ofKeyword? : String → Option KeywordType
  | "$ref" | "$schema" | "description" | "format" | "id" | "pattern" | "title" | "type"
  | "x-kubernetes-list-type" | "x-kubernetes-map-type" => some .text
  | "exclusiveMaximum" | "exclusiveMinimum" | "nullable" | "uniqueItems" | "x-kubernetes-embedded-resource"
  | "x-kubernetes-int-or-string" | "x-kubernetes-preserve-unknown-fields" => some .flag
  | "maxItems" | "maxLength" | "maxProperties" | "minItems" | "minLength" | "minProperties" => some .count
  | "maximum" | "minimum" | "multipleOf" => some .number
  | "default" | "example" => some .any
  | "enum" => some .values
  | "required" | "x-kubernetes-list-map-keys" => some .texts
  | "not" => some .schema
  | "allOf" | "anyOf" | "oneOf" => some .schemas
  | "definitions" | "patternProperties" | "properties" => some .schemasByName
  | "additionalItems" | "additionalProperties" => some .schemaOrFlag
  | "items" => some .schemaOrSchemas
  | "dependencies" => some .schemasOrTextsByName
  | "externalDocs" => some .documentation
  | "x-kubernetes-validations" => some .rules
  | _ => none

end KeywordType

namespace Json

private def wrong (value : Json) (expected : String) : Complaint := (Outline.ofJson value).wrongType ⟨false, 0⟩ expected

/-- A list of texts. -/
def restateTexts : Json → Except Complaint Json
  | .array items => (items.mapM (decode Decoder.text)).map Json.strings
  | value => .error (wrong value "a sequence")

/-- The known members of an object that are not null. -/
private def restateFields (name : String) (fields : List (String × (Json → Except Complaint Json))) :
    Json → Except Complaint (Fields Json)
  | .object members => do
    let known ← members.mapM fun (key, value) => match Table.lookup fields key, value with
      | none, _ => pure none
      | some _, .null => pure none
      | some read, value => do return some (key, ← read value)
    return known.reduceOption
  | value => .error (wrong value name)

private def textValue (value : Json) : Except Complaint Json := (decode Decoder.text value).map .string

private def flagValue (value : Json) : Except Complaint Json := (decode Decoder.flag value).map .bool

def restateDocumentation (value : Json) : Except Complaint Json :=
  (restateFields "ExternalDocumentation" [("description", textValue), ("url", textValue)] value).map .object

/-- A rule always has a text, which may be empty. -/
def restateRule (value : Json) : Except Complaint Json := do
  let members ← restateFields "ValidationRule" [("fieldPath", textValue), ("message", textValue),
    ("messageExpression", textValue), ("optionalOldSelf", flagValue), ("reason", textValue), ("rule", textValue)] value
  return .object (if Table.contains members "rule" then members else members.insert "rule" (.string ""))

mutual

/-- A schema with the known keywords only. -/
def restateSchema : Json → Except Complaint Json
  | .object members => (restateMembers members).map .object
  | value => .error (wrong value "JSONSchemaProps")

def restateMembers : List (String × Json) → Except Complaint (List (String × Json))
  | [] => .ok []
  | (key, value) :: rest => match KeywordType.ofKeyword? key, value with
    | none, _ => restateMembers rest
    | some _, .null => restateMembers rest
    | some type, value => do
      let value ← restateKeyword type value
      return (key, value) :: (← restateMembers rest)

def restateKeyword : KeywordType → Json → Except Complaint Json
  | .text, value => textValue value
  | .flag, value => flagValue value
  | .count, value => (decode Decoder.int64 value).map fun n => .number (.int n)
  | .number, value => (decode Decoder.double value).map fun d => .number (.double d)
  | .any, value => .ok value
  | .values, .array items => .ok (.array items)
  | .texts, value => restateTexts value
  | .schema, value => restateSchema value
  | .schemas, .array items => (restateSchemas items).map .array
  | .schemasByName, .object members => (restateSchemasByName members).map .object
  | .schemaOrFlag, .bool b => .ok (.bool b)
  | .schemaOrFlag, .object members => (restateMembers members).map .object
  | .schemaOrFlag, value => .error (wrong value "JSONSchemaPropsOrBool")
  | .schemaOrSchemas, .array items => (restateSchemas items).map .array
  | .schemaOrSchemas, .object members => (restateMembers members).map .object
  | .schemaOrSchemas, value => .error (wrong value "JSONSchemaPropsOrArray")
  | .schemasOrTextsByName, .object members => (restateDependencies members).map .object
  | .documentation, value => restateDocumentation value
  | .rules, .array items => (items.mapM restateRule).map .array
  | .schemasByName, value => .error (wrong value "a map")
  | .schemasOrTextsByName, value => .error (wrong value "a map")
  | .values, value => .error (wrong value "a sequence")
  | .schemas, value => .error (wrong value "a sequence")
  | .rules, value => .error (wrong value "a sequence")

def restateSchemas : List Json → Except Complaint (List Json)
  | [] => .ok []
  | item :: rest => do
    let item ← restateSchema item
    return item :: (← restateSchemas rest)

def restateSchemasByName : List (String × Json) → Except Complaint (List (String × Json))
  | [] => .ok []
  | (name, value) :: rest => do
    let value ← restateSchema value
    return (name, value) :: (← restateSchemasByName rest)

def restateDependencies : List (String × Json) → Except Complaint (List (String × Json))
  | [] => .ok []
  | (name, .object members) :: rest => do
    let value ← restateMembers members
    return (name, .object value) :: (← restateDependencies rest)
  | (name, .array items) :: rest => do
    let value ← restateTexts (.array items)
    return (name, value) :: (← restateDependencies rest)
  | (_, value) :: _ => .error (wrong value "JSONSchemaPropsOrStringArray")

end

end Json

end ResourceKinds
