import ResourceKinds.Conformance.Violation
import ResourceKinds.Json.Number
import ResourceKinds.Json.Outline
import ResourceKinds.Text.Base64
import ResourceKinds.Text.Format

namespace ResourceKinds.Conformance

/-- Judges a value at a place by a schema. -/
abbrev Judge := (schema : Json) → (place : List String) → (value : Json) → List Violation

/-- A value of the named type; integers are the numbers without a fraction. -/
def hasType (value : Json) (type : String) : Bool :=
  match value with
  | .null => type = "null"
  | .bool _ => type = "boolean"
  | .number n => type = "number" || (type = "integer" && n.toInt?.isSome)
  | .string _ => type = "string"
  | .array _ => type = "array"
  | .object _ => type = "object"

def typeNames : List String := ["array", "boolean", "integer", "null", "number", "object", "string"]

/-- The types that a keyword lists, in alphabetical order. -/
def typesOf : Json → List String
  | .string type => [type]
  | .array types => typeNames.filter fun name => types.contains (.string name)
  | _ => []

/-- A count, which may be written with a fraction of zero. -/
def limit? : Json → Option Nat
  | .number n => n.toInt?.bind fun n => if 0 ≤ n then some (min n.toNat (UInt64.size - 1)) else none
  | _ => none

/-- The difference is below the distance of one from the next greater double. -/
def isNearly (a b : Number) : Bool :=
  (a.toDouble.toFloat - b.toDouble.toFloat).abs < (2.220446049250313e-16 : Float)

/-- Two numbers are as expected when they are nearly the same. -/
def isExpected (expected value : Json) : Bool :=
  match expected, value with
  | .number a, .number b => isNearly a b
  | _, _ => expected.same value

/-- A whole unit divides a number exactly; any other unit leaves no positive remainder. -/
def isMultiple (value unit : Number) : Bool :=
  match unit.toDouble.toInt?, value.toDouble.toInt? with
  | some unit, some value => value % unit = 0
  | some _, none => false
  | none, _ =>
    let quotient := value.toDouble.toFloat / unit.toDouble.toFloat
    let remainder := quotient - (if quotient < 0 then quotient.ceil else quotient.floor)
    remainder < (2.220446049250313e-16 : Float)

def hasRepetition : List Json → Bool
  | [] => false
  | item :: rest => rest.any item.same || hasRepetition rest

/-- Resolves an index or a name of a pointer. -/
def step? (value : Json) (segment : String) : Option Json :=
  match value with
  | .object members => Table.lookup members segment
  | .array items => segment.toNat?.bind (items[·]?)
  | _ => none

private def unescape (segment : String) : String := (segment.replace "~1" "/").replace "~0" "~"

/-- The part of a document that a reference inside it names. -/
def resolve? (root : Json) (reference : String) : Option Json :=
  match Text.split '/' reference with
  | "#" :: segments => segments.foldlM (fun value segment => step? value (unescape segment)) root
  | _ => none

/-- The patterns of a schema that match a name, with their schemas. -/
def patternsFor (siblings : Fields Json) (name : String) : List Json :=
  (((Table.lookup siblings "patternProperties").bind Json.asObject?).getD []).filterMap fun (pattern, schema) =>
    if (Text.Pattern.ofText? pattern).any (·.isFoundIn name) then some schema else none

/-- The members of an object that neither a property nor a pattern of the schema speaks for. -/
def unspoken (siblings : Fields Json) (members : Fields Json) : Fields Json :=
  let declared := ((Table.lookup siblings "properties").bind Json.asObject?).getD []
  members.filter fun (name, _) => !Table.contains declared name && (patternsFor siblings name).isEmpty

def isListed (value : Json) (options : List Json) : Bool := options.any value.same

/-- What a value does wrong in the eyes of one keyword that holds no schemas. -/
def plainBreaches (siblings : Fields Json) (keyword : String) (argument value : Json) : List Breach :=
  let require (valid : Bool) (breach : Breach) : List Breach := if valid then [] else [breach]
  match keyword, argument, value with
  | "type", types, value => require ((typesOf types).any (hasType value)) (.wrongType (typesOf types))
  | "enum", .array options, value => require (isListed value options) (.notListed argument)
  | "const", expected, value => require (isExpected expected value) (.notExpected expected)
  | "minLength", limit, .string s => ((limit? limit).map fun n => require (n ≤ s.length) (.tooShort n)).getD []
  | "maxLength", limit, .string s => ((limit? limit).map fun n => require (s.length ≤ n) (.tooLong n)).getD []
  | "pattern", .string pattern, .string s =>
    require ((Text.Pattern.ofText? pattern).any (·.isFoundIn s)) (.noMatch pattern)
  | "format", .string format, .string s =>
    require ((Text.Format.check? format).all (· s)) (.wrongFormat format)
  | "minimum", .number limit, .number n => require (n.compare limit ≠ .lt) (.belowMinimum limit)
  | "maximum", .number limit, .number n => require (n.compare limit ≠ .gt) (.aboveMaximum limit)
  | "exclusiveMinimum", .number limit, .number n => require (n.compare limit = .gt) (.notAboveMinimum limit)
  | "exclusiveMaximum", .number limit, .number n => require (n.compare limit = .lt) (.notBelowMaximum limit)
  | "multipleOf", .number unit, .number n => require (isMultiple n unit) (.noMultiple unit.toDouble)
  | "minItems", limit, .array items => ((limit? limit).map fun n => require (n ≤ items.length) (.tooFewItems n)).getD []
  | "maxItems", limit, .array items => ((limit? limit).map fun n => require (items.length ≤ n) (.tooManyItems n)).getD []
  | "uniqueItems", .bool true, .array items => require (!hasRepetition items) .repeatedItems
  | "minProperties", limit, .object members =>
    ((limit? limit).map fun n => require (n ≤ members.length) (.tooFewProperties n)).getD []
  | "maxProperties", limit, .object members =>
    ((limit? limit).map fun n => require (members.length ≤ n) (.tooManyProperties n)).getD []
  | "required", .array names, .object members =>
    names.filterMap fun name => match name with
      | .string text => if Table.contains members text then none else some (.missing name)
      | _ => none
  | "contentEncoding", .string encoding, .string s =>
    if Table.contains siblings "contentMediaType" || encoding ≠ "base64" then []
    else require (Text.Base64.decode? s.toList).isSome (.wrongEncoding encoding)
  | "contentMediaType", .string type, .string s =>
    if type ≠ "application/json" then []
    else match Table.lookup siblings "contentEncoding" with
    | some (.string "base64") => match Text.Base64.decodeText? s with
      | some content => require (Json.read content).isOk (.wrongMediaType type)
      | none => [.wrongEncoding "base64"]
    | some _ => []
    | none => require (Json.read s).isOk (.wrongMediaType type)
  | _, _, _ => []

/-- The judgements of the items from an index on. -/
def judgeItems (judge : Judge) (schema : Json) (place : List String) : Nat → List Json → List Violation
  | _, [] => []
  | index, item :: rest =>
    judge schema (place ++ [toString index]) item ++ judgeItems judge schema place (index + 1) rest

/-- The judgements of items by schemas of their own, as far as there are any. -/
def judgeEach (judge : Judge) (place : List String) : Nat → List Json → List Json → List Violation
  | index, schema :: schemas, item :: items =>
    judge schema (place ++ [toString index]) item ++ judgeEach judge place (index + 1) schemas items
  | _, _, _ => []

/-- What a value does wrong in the eyes of one keyword that holds schemas. -/
def nestedViolations (judge : Judge) (siblings : Fields Json) (keyword : String) (argument : Json) (place : List String)
    (value : Json) : List Violation :=
  let holds (schema : Json) : Bool := (judge schema place value).isEmpty
  let breach (breach : Breach) : List Violation := [⟨place, value, breach⟩]
  match keyword, argument, value with
  | "properties", .object properties, .object members => properties.flatMap fun (name, schema) =>
    match Table.lookup members name with
    | some member => judge schema (place ++ [name]) member
    | none => []
  | "patternProperties", _, .object members => members.flatMap fun (name, member) =>
    (patternsFor siblings name).flatMap fun schema => judge schema (place ++ [name]) member
  | "additionalProperties", .bool false, .object members =>
    match unspoken siblings members with
    | [] => []
    | (name, member) :: rest =>
      if Table.contains siblings "properties" || Table.contains siblings "patternProperties" then
        breach (.extraProperties (name :: Table.keys rest))
      else [⟨place, member, .nothingAllowed⟩]
  | "additionalProperties", schema, .object members =>
    (unspoken siblings members).flatMap fun (name, member) => judge schema (place ++ [name]) member
  | "propertyNames", schema, .object members => members.flatMap fun (name, _) =>
    (judge schema place (.string name)).map fun violation => { violation with place := place }
  | "dependencies", .object dependencies, .object members => dependencies.flatMap fun (name, dependency) =>
    if !Table.contains members name then []
    else match dependency with
    | .array names => (plainBreaches siblings "required" (.array names) value).flatMap breach
    | schema => judge schema place value
  | "items", .array schemas, .array items => judgeEach judge place 0 schemas items
  | "items", schema, .array items => judgeItems judge schema place 0 items
  | "additionalItems", schema, .array items => match Table.lookup siblings "items" with
    | some (.array schemas) =>
      let more := items.drop schemas.length
      match schema, more with
      | .bool false, _ :: _ => breach (.extraItems more)
      | schema, more => judgeItems judge schema place schemas.length more
    | _ => []
  | "contains", schema, .array items =>
    if items.any fun item => (judge schema place item).isEmpty then [] else breach .nothingContained
  | "allOf", .array schemas, _ => schemas.flatMap fun schema => judge schema place value
  | "anyOf", .array schemas, _ => if schemas.any holds then [] else breach .noneOfAny
  | "oneOf", .array schemas, _ => match schemas.filter holds with
    | [] => breach .noneOfOne
    | [_] => []
    | _ => breach .severalOfOne
  | "not", schema, _ => if holds schema then breach (.prohibited schema) else []
  | "if", schema, _ =>
    match Table.lookup siblings (if holds schema then "then" else "else") with
    | some consequence => judge consequence place value
    | none => []
  | _, _, _ => []

/-- The violations of a schema in a document, whose keywords are looked at in order; unknown ones mean nothing. A chain of references that never gets to another part
of the value ends with the fuel, and has no violations. -/
def violations (root : Json) : Nat → Judge
  | 0, _, _, _ => []
  | fuel + 1, schema, place, value =>
    match schema with
    | .bool false => [⟨place, value, .nothingAllowed⟩]
    | .object members => match Table.lookup members "$ref" with
      | some (.string reference) => match resolve? root reference with
        | some target => violations root fuel target place value
        | none => [⟨[], .null, .unknownReference ("json-schema:///" ++ reference)⟩]
      | _ => members.flatMap fun (keyword, argument) =>
        (plainBreaches members keyword argument value).map (⟨place, value, ·⟩) ++
          nestedViolations (violations root fuel) members keyword argument place value
    | _ => []

/-- Every way from one part of the value to a smaller one passes each part of the schema at most
once. -/
def judge (schema value : Json) : List Violation := violations schema ((schema.size + 1) * (value.height + 2)) schema [] value

end ResourceKinds.Conformance
