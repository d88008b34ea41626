namespace ResourceKinds

/-- A value is held by its bits, so that two of them can be told apart. -/
structure Double where
  bits : UInt64
deriving DecidableEq, Inhabited

namespace Double

def ofFloat (x : Float) : Double := ⟨x.toBits⟩

def toFloat (d : Double) : Float := Float.ofBits d.bits

/-- The nearest double to a natural number below `2 ^ 64`. -/
def ofNat (n : Nat) : Double := ofFloat n.toUInt64.toFloat

def neg (d : Double) : Double := ⟨d.bits ^^^ 0x8000000000000000⟩

def isNegative (d : Double) : Bool := d.bits >>> 63 == 1

def exponentField (d : Double) : Nat := ((d.bits >>> 52) &&& 0x7ff).toNat

def fractionField (d : Double) : Nat := (d.bits &&& 0xfffffffffffff).toNat

def isFinite (d : Double) : Bool := d.exponentField ≠ 0x7ff

def isZero (d : Double) : Bool := d.exponentField = 0 && d.fractionField = 0

/-- The magnitude of a finite double is `significand * 2 ^ scale`. -/
def significand (d : Double) : Nat :=
  if d.exponentField = 0 then d.fractionField else d.fractionField + Nat.pow 2 52

def scale (d : Double) : Int := (max d.exponentField 1 : Nat) - 1075

/-- Below a power of two the doubles lie twice as dense as above it. -/
def isBinade (d : Double) : Bool := d.fractionField = 0 && 1 < d.exponentField

/-- A finite double without a fractional part, as an integer. -/
def toInt? (d : Double) : Option Int :=
  let magnitude : Option Nat :=
    if 0 ≤ d.scale then some (d.significand * Nat.pow 2 d.scale.toNat)
    else
      let unit := Nat.pow 2 (-d.scale).toNat
      if d.significand % unit = 0 then some (d.significand / unit) else none
  if d.isFinite then magnitude.map fun n => if d.isNegative then -(n : Int) else n else none

end Double

end ResourceKinds
