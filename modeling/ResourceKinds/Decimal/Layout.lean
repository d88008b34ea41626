import ResourceKinds.Decimal.Shortest

namespace ResourceKinds

/-- Decimal exponents in `[positionalFrom, positionalBelow)` are written in full. -/
structure Layout where
  positionalFrom : Int
  positionalBelow : Int
  plusSign : Bool

namespace Layout

private def zeros (n : Nat) : String := String.ofList (List.replicate n '0')

/-- A digit string with a point after its first `places` digits. -/
private def pointed (digits : List Char) (places : Nat) : String :=
  let whole := digits.take places
  let fraction := digits.drop places
  String.ofList whole ++ "." ++ (if fraction.isEmpty then "0" else String.ofList fraction)

def decimal (layout : Layout) (x : Decimal) : String :=
  let digits := (toString x.digits).toList
  let exponent := x.exponent + digits.length - 1
  if layout.positionalFrom ≤ exponent && exponent < layout.positionalBelow then
    if exponent < 0 then "0." ++ zeros (-exponent - 1).toNat ++ String.ofList digits
    else pointed (digits ++ List.replicate x.exponent.toNat '0') (exponent.toNat + 1)
  else
    let mantissa := if digits.length = 1 then String.ofList digits else pointed digits 1
    let sign := if exponent < 0 then "-" else if layout.plusSign then "+" else ""
    mantissa ++ "e" ++ sign ++ toString exponent.natAbs

/-- A finite double. -/
def render (layout : Layout) (d : Double) : String :=
  (if d.isNegative then "-" else "") ++ (if d.isZero then "0.0" else layout.decimal d.shortest)

/-- Every digit is written out. No double has a decimal exponent outside of ±400. -/
def full : Layout := ⟨-400, 400, false⟩

end Layout

/-- The text of a double in full, without a point where the double is whole. -/
def Double.plainText (d : Double) : String :=
  if d.isFinite then
    let text := Layout.full.render d
    if text.endsWith ".0" then String.ofList (text.toList.take (text.length - 2)) else text
  else if d.fractionField ≠ 0 then "NaN"
  else if d.isNegative then "-inf" else "inf"

end ResourceKinds
