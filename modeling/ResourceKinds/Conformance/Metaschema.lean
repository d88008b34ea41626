import ResourceKinds.Conformance.Validator
import ResourceKinds.Schema.Structural

namespace ResourceKinds

namespace Conformance

private def whole : Json := .object [("$ref", .string "#")]

private def typed (type : String) : Json := .object [("type", .string type)]

private def formatted (format : String) : Json := .object [("format", .string format), ("type", .string "string")]

private def count : Json := .object [("minimum", .ofNat 0), ("type", .string "integer")]

private def schemaList : Json := .object [("items", whole), ("minItems", .ofNat 1), ("type", .string "array")]

private def textList : Json :=
  .object [("items", typed "string"), ("type", .string "array"), ("uniqueItems", .bool true)]

private def schemasByName : Json := .object [("additionalProperties", whole), ("type", .string "object")]

private def typeName : Json := .object [("enum", Json.strings typeNames)]

private def anyOf (schemas : List Json) : Json := .object [("anyOf", .array schemas)]

/-- The schema of schemas. -/
def metaschema : Json := .object [
  ("properties", .object [
    ("$comment", typed "string"),
    ("$id", formatted "uri-reference"),
    ("$ref", formatted "uri-reference"),
    ("$schema", formatted "uri"),
    ("additionalItems", whole),
    ("additionalProperties", whole),
    ("allOf", schemaList),
    ("anyOf", schemaList),
    ("contains", whole),
    ("contentEncoding", typed "string"),
    ("contentMediaType", typed "string"),
    ("definitions", schemasByName),
    ("dependencies", .object [("additionalProperties", anyOf [whole, textList]), ("type", .string "object")]),
    ("description", typed "string"),
    ("else", whole),
    ("enum", typed "array"),
    ("examples", typed "array"),
    ("exclusiveMaximum", typed "number"),
    ("exclusiveMinimum", typed "number"),
    ("format", typed "string"),
    ("if", whole),
    ("items", anyOf [whole, schemaList]),
    ("maxItems", count),
    ("maxLength", count),
    ("maxProperties", count),
    ("maximum", typed "number"),
    ("minItems", count),
    ("minLength", count),
    ("minProperties", count),
    ("minimum", typed "number"),
    ("multipleOf", .object [("exclusiveMinimum", .ofNat 0), ("type", .string "number")]),
    ("not", whole),
    ("oneOf", schemaList),
    ("pattern", formatted "regex"),
    ("patternProperties", .object [("additionalProperties", whole),
      ("propertyNames", .object [("format", .string "regex")]), ("type", .string "object")]),
    ("properties", schemasByName),
    ("propertyNames", whole),
    ("readOnly", typed "boolean"),
    ("required", textList),
    ("then", whole),
    ("title", typed "string"),
    ("type", anyOf [typeName, .object [("items", typeName), ("minItems", .ofNat 1), ("type", .string "array"),
      ("uniqueItems", .bool true)]]),
    ("uniqueItems", typed "boolean")]),
  ("type", Json.strings ["boolean", "object"])]

/-- What keeps a document from being a schema. -/
def schemaFlaw? (document : Json) : Option Violation := (judge metaschema document).head?

end Conformance

namespace StructuralSchema

/-- The validator of a schema, unless some keyword of it has an unfit value. -/
def validator (schema : StructuralSchema) : Except SchemaError (Json → List Violation) :=
  match Conformance.schemaFlaw? schema.toJson with
  | some flaw => .error (.invalidFormat "#" (.keyword flaw.text))
  | none => .ok (Conformance.judge schema.toJson)

end StructuralSchema

end ResourceKinds
