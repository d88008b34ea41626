import ResourceKinds.Json.Basic
import ResourceKinds.Decimal.Reader

namespace ResourceKinds.Yaml

def isNull (text : String) : Bool := ["null", "Null", "NULL", "~"].contains text

def bool? (text : String) : Option Bool :=
  if ["true", "True", "TRUE"].contains text then some true
  else if ["false", "False", "FALSE"].contains text then some false
  else none

def digitValue? (base : Nat) (c : Char) : Option Nat :=
  let value :=
    if '0' ≤ c && c ≤ '9' then c.toNat - '0'.toNat
    else if 'a' ≤ c && c ≤ 'f' then c.toNat - 'a'.toNat + 10
    else if 'A' ≤ c && c ≤ 'F' then c.toNat - 'A'.toNat + 10
    else 16
  if value < base then some value else none

def natural? (base : Nat) : List Char → Option Nat
  | [] => none
  | digits => digits.foldlM (fun n c => (digitValue? base c).map (n * base + ·)) 0

/-- More than one digit, the first of them zero. -/
def hasLeadingZero (text : List Char) : Bool :=
  match (DecimalText.splitSign text).2 with
  | '0' :: c :: rest => (c :: rest).all DecimalText.isDigit
  | _ => false

/-- Integers of at most 128 bits, in decimal or with the mark of another base. -/
def int? (text : List Char) : Option Int :=
  let (negative, rest) := DecimalText.splitSign text
  let magnitude : Option Nat := match rest with
    | '0' :: 'x' :: digits => natural? 16 digits
    | '0' :: 'o' :: digits => natural? 8 digits
    | '0' :: 'b' :: digits => natural? 2 digits
    | digits => if hasLeadingZero text then none else natural? 10 digits
  match magnitude with
  | none => none
  | some n =>
    if negative then if n ≤ Nat.pow 2 127 then some (-(n : Int)) else none
    else if n < Nat.pow 2 128 then some n else none

/-- Infinity may have a sign; a number without a value may not. -/
def isUnbounded (text : String) : Bool :=
  [".inf", ".Inf", ".INF", "+.inf", "+.Inf", "+.INF", "-.inf", "-.Inf", "-.INF", ".nan", ".NaN", ".NAN"].contains text

/-- The scalar is something other than a text, or digits with a leading zero, which other readers
might take for a number. -/
def isAmbiguous (text : String) : Bool :=
  text.isEmpty || isNull text || (bool? text).isSome || (int? text.toList).isSome || isUnbounded text ||
    (Double.ofText? text.toList).isSome || hasLeadingZero text.toList

end ResourceKinds.Yaml
