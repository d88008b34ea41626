import ResourceKinds.Decimal.Layout
import ResourceKinds.Json.Printer

namespace ResourceKinds

inductive Breach where
  | wrongType (types : List String)
  | missing (property : Json)
  | notListed (options : Json)
  | notExpected (expected : Json)
  | tooShort (limit : Nat) | tooLong (limit : Nat)
  | noMatch (pattern : String)
  | wrongFormat (format : String)
  | belowMinimum (limit : Number) | aboveMaximum (limit : Number)
  | notAboveMinimum (limit : Number) | notBelowMaximum (limit : Number)
  | noMultiple (unit : Double)
  | tooFewItems (limit : Nat) | tooManyItems (limit : Nat)
  | repeatedItems
  | nothingContained
  | extraItems (items : List Json)
  | tooFewProperties (limit : Nat) | tooManyProperties (limit : Nat)
  | extraProperties (names : List String)
  | noneOfAny | noneOfOne | severalOfOne
  | prohibited (schema : Json)
  | nothingAllowed
  | wrongEncoding (encoding : String)
  | wrongMediaType (type : String)
  | unknownReference (reference : String)

private def counted (n : Nat) (one many : String) : String := toString n ++ " " ++ (if n = 1 then one else many)

private def verb (count : Nat) : String := if count = 1 then "was" else "were"

/-- The text of a breach by the given value. -/
def Breach.message (value : Json) : Breach → String
  | .wrongType [type] => value.compact ++ " is not of type " ++ Json.quote type
  | .wrongType types => value.compact ++ " is not of types " ++ ", ".intercalate (types.map Json.quote)
  | .missing property => property.compact ++ " is a required property"
  | .notListed options => value.compact ++ " is not one of " ++ options.compact
  | .notExpected expected => expected.compact ++ " was expected"
  | .tooShort limit => value.compact ++ " is shorter than " ++ counted limit "character" "characters"
  | .tooLong limit => value.compact ++ " is longer than " ++ counted limit "character" "characters"
  | .noMatch pattern => value.compact ++ " does not match \"" ++ pattern ++ "\""
  | .wrongFormat format => value.compact ++ " is not a \"" ++ format ++ "\""
  | .belowMinimum limit => value.compact ++ " is less than the minimum of " ++ Json.numberText limit
  | .aboveMaximum limit => value.compact ++ " is greater than the maximum of " ++ Json.numberText limit
  | .notAboveMinimum limit => value.compact ++ " is less than or equal to the minimum of " ++ Json.numberText limit
  | .notBelowMaximum limit =>
    value.compact ++ " is greater than or equal to the maximum of " ++ Json.numberText limit
  | .noMultiple unit => value.compact ++ " is not a multiple of " ++ unit.plainText
  | .tooFewItems limit => value.compact ++ " has less than " ++ counted limit "item" "items"
  | .tooManyItems limit => value.compact ++ " has more than " ++ counted limit "item" "items"
  | .repeatedItems => value.compact ++ " has non-unique elements"
  | .nothingContained => "None of " ++ value.compact ++ " are valid under the given schema"
  | .extraItems items =>
    "Additional items are not allowed (" ++ ", ".intercalate (items.map Json.compact) ++ " " ++ verb items.length ++
      " unexpected)"
  | .tooFewProperties limit => value.compact ++ " has less than " ++ counted limit "property" "properties"
  | .tooManyProperties limit => value.compact ++ " has more than " ++ counted limit "property" "properties"
  | .extraProperties names =>
    "Additional properties are not allowed (" ++ ", ".intercalate (names.map fun name => "'" ++ name ++ "'") ++ " " ++
      verb names.length ++ " unexpected)"
  | .noneOfAny => value.compact ++ " is not valid under any of the schemas listed in the 'anyOf' keyword"
  | .noneOfOne => value.compact ++ " is not valid under any of the schemas listed in the 'oneOf' keyword"
  | .severalOfOne => value.compact ++ " is valid under more than one of the schemas listed in the 'oneOf' keyword"
  | .prohibited schema => schema.compact ++ " is not allowed for " ++ value.compact
  | .nothingAllowed => "False schema does not allow " ++ value.compact
  | .wrongEncoding encoding => value.compact ++ " is not compliant with \"" ++ encoding ++ "\" content encoding"
  | .wrongMediaType type => value.compact ++ " is not compliant with \"" ++ type ++ "\" media type"
  | .unknownReference reference => "Invalid reference: " ++ reference

/-- A breach by the value at a place of a document. -/
structure Violation where
  place : List String
  value : Json
  breach : Breach

namespace Violation

/-- A segment of a pointer, with tildes and slashes escaped. -/
def segmentText (segment : String) : String :=
  segment.foldl (fun text c => text ++ (if c = '~' then "~0" else if c = '/' then "~1" else String.singleton c)) "/"

def pointer (violation : Violation) : String := String.join (violation.place.map segmentText)

/-- What was done wrong, without the place. -/
def text (violation : Violation) : String := violation.breach.message violation.value

def message (violation : Violation) : String := violation.pointer ++ ": " ++ violation.text

end Violation

end ResourceKinds
