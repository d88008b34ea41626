import ResourceKinds.Decimal.Double

namespace ResourceKinds

/-- A decimal as it is written: `digits * 10 ^ exponent`, with its sign. -/
structure DecimalText where
  negative : Bool
  digits : Nat
  exponent : Int
deriving DecidableEq

namespace DecimalText

def isDigit (c : Char) : Bool := '0' ≤ c && c ≤ '9'

def natural (digits : List Char) : Nat := digits.foldl (fun n c => n * 10 + (c.toNat - '0'.toNat)) 0

/-- An integer of 64 bits. -/
def int64? (negative : Bool) (magnitude : Nat) : Option Int :=
  let value : Int := if negative then -(magnitude : Int) else magnitude
  if Int64.minValue.toInt ≤ value && value ≤ Int64.maxValue.toInt then some value else none

/-- A text without its sign, and whether that is a minus. -/
def splitSign : List Char → Bool × List Char
  | '-' :: rest => (true, rest)
  | '+' :: rest => (false, rest)
  | rest => (false, rest)

/-- The exponent after the digits: nothing, or `e` and an integer. -/
def exponent? : List Char → Option Int
  | [] => some 0
  | c :: rest =>
    if c = 'e' || c = 'E' then
      let (negative, digits) := splitSign rest
      if digits.isEmpty || !digits.all isDigit then none
      else some (if negative then -(natural digits : Int) else natural digits)
    else none

/-- There has to be a digit before or after the point. -/
def parse? (text : List Char) : Option DecimalText :=
  let (negative, rest) := splitSign text
  let whole := rest.takeWhile isDigit
  let (fraction, tail) := match rest.dropWhile isDigit with
    | '.' :: rest => (rest.takeWhile isDigit, rest.dropWhile isDigit)
    | rest => ([], rest)
  if whole.isEmpty && fraction.isEmpty then none
  else (exponent? tail).map fun exponent => ⟨negative, natural (whole ++ fraction), exponent - fraction.length⟩

/-- The nearest double, which is infinite for a decimal beyond all doubles. No double has a
decimal exponent outside of ±400. -/
def nearest (text : DecimalText) : Float :=
  let magnitude : Float :=
    let size : Int := text.exponent + (toString text.digits).length
    if text.digits = 0 || size < -400 then 0.0
    else if 400 < size then 1.0 / 0.0
    else if text.exponent < 0 then Float.ofScientific text.digits true text.exponent.natAbs
    else Float.ofScientific text.digits false text.exponent.natAbs
  if text.negative then -magnitude else magnitude

end DecimalText

namespace Double

/-- The double that a decimal text stands for, unless it is infinite. -/
def ofText? (text : List Char) : Option Double := do
  let decimal ← DecimalText.parse? text
  if decimal.nearest.isInf then none else some (ofFloat decimal.nearest)

def infinity : Double := ⟨0x7ff0000000000000⟩

/-- A value that is no number. -/
def notANumber : Double := ⟨0x7ff8000000000000⟩

/-- The double nearest to a decimal text, or the one that a word such as `inf` or `-NaN` names. -/
def ofTextOrWord? (text : List Char) : Option Double :=
  let (negative, word) := DecimalText.splitSign text
  let signed (d : Double) : Double := if negative then d.neg else d
  let word := String.ofList (word.map Char.toLower)
  if word = "inf" || word = "infinity" then some (signed infinity)
  else if word = "nan" then some (signed notANumber)
  else (DecimalText.parse? text).map fun decimal => ofFloat decimal.nearest

end Double

end ResourceKinds
