import ResourceKinds.Json.Decoder
import ResourceKinds.Yaml.Scalar

namespace ResourceKinds.Yaml

/-- Whether a scalar stands in quotes matters: only one without them can be anything but a text. -/
inductive Node where
  | scalar (text : String) (isPlain : Bool)
  | list (items : List Node)
  | map (entries : List (String × Node))
deriving Inhabited

/-- What a scalar without quotes reads as. Integers beyond 64 bits are rounded, and a value that is
no finite number is null. -/
def plainValue (text : String) : Json :=
  let chars := text.toList
  if text = "" || isNull text then .null
  else match bool? text with
  | some b => .bool b
  | none => match int? chars with
    | some n =>
      if Int64.minValue.toInt ≤ n && n < UInt64.size then .number (.int n)
      else .number (.double (.ofFloat (DecimalText.nearest ⟨n < 0, n.natAbs, 0⟩)))
    | none =>
      if isUnbounded text then .null
      else if hasLeadingZero chars then .string text
      else match Double.ofText? chars with
      | some d => .number (.double d)
      | none => .string text

namespace Node

mutual

def outline : Node → Json.Outline
  | .scalar text true => .plain text (plainValue text)
  | .scalar text false => .scalar (.string text) .start .start
  | .list items => .list (outlineItems items) .start (.ok .start)
  | .map entries => .record (outlineEntries entries) .start (.ok .start)

def outlineItems : List Node → List (Json.Item Json.Outline)
  | [] => []
  | item :: rest => ⟨item.outline, .start⟩ :: outlineItems rest

def outlineEntries : List (String × Node) → List (Json.Entry Json.Outline)
  | [] => []
  | (key, value) :: rest => ⟨key, .start, value.outline, .start⟩ :: outlineEntries rest

end

end Node

end ResourceKinds.Yaml
