import ResourceKinds.Decimal.Double

namespace ResourceKinds

/-- `digits * 10 ^ exponent`. -/
structure Decimal where
  digits : Nat
  exponent : Int
deriving DecidableEq, Inhabited

namespace Double

/-- A fraction of natural numbers equal to `2 ^ twos / 10 ^ tens`. -/
private def ratio (twos tens : Int) : Nat × Nat :=
  (Nat.pow 2 twos.toNat * Nat.pow 10 (-tens).toNat, Nat.pow 2 (-twos).toNat * Nat.pow 10 tens.toNat)

/-- The multiple of `10 ^ unit` that rounds to `d` and lies nearest to it, if there is one; the even one on a tie. -/
def nearestOnGrid? (d : Double) (unit : Int) : Option Nat :=
  let (num, den) := ratio (d.scale - 2) unit
  let middle := 4 * d.significand * num
  let lower := (4 * d.significand - (if d.isBinade then 1 else 2)) * num
  let upper := (4 * d.significand + 2) * num
  let rounds (point : Nat) : Bool :=
    if d.significand % 2 = 0 then lower ≤ point * den && point * den ≤ upper
    else lower < point * den && point * den < upper
  let below := middle / den
  match rounds below, rounds (below + 1) with
  | true, false => some below
  | false, true => some (below + 1)
  | false, false => none
  | true, true =>
    let down := middle - below * den
    let up := (below + 1) * den - middle
    if down < up then some below
    else if up < down then some (below + 1)
    else if below % 2 = 0 then some below else some (below + 1)

/-- Among the decimals that round to the double, those with the largest power of ten as their unit are shortest. -/
private def searchGrids (d : Double) : Nat → Int → Decimal
  | 0, unit => ⟨(d.nearestOnGrid? unit).getD 0, unit⟩
  | finer + 1, unit =>
    match d.nearestOnGrid? unit with
    | some digits => ⟨digits, unit⟩
    | none => searchGrids d finer (unit - 1)

/-- The shortest decimal of a finite nonzero double, without its sign. The search starts at a
grid with no point near the double and ends within twenty finer ones, since seventeen digits
tell any two doubles apart. -/
def shortest (d : Double) : Decimal :=
  let magnitude : Int := d.scale + d.significand.log2
  searchGrids d 20 (magnitude * 30103 / 100000 + 2)

end Double

end ResourceKinds
