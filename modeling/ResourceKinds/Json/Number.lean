import ResourceKinds.Json.Basic

namespace ResourceKinds

namespace Number

/-- The number is the first part times two to the power of the second. -/
def binary : Number → Int × Int
  | .int n => (n, 0)
  | .double d => (if d.isNegative then -(d.significand : Int) else d.significand, d.scale)

def compare (a b : Number) : Ordering :=
  let (m, e) := a.binary
  let (n, f) := b.binary
  let unit := min e f
  Ord.compare (m * Nat.pow 2 (e - unit).toNat) (n * Nat.pow 2 (f - unit).toNat)

def toDouble : Number → Double
  | .int n => if n < 0 then (Double.ofNat n.natAbs).neg else Double.ofNat n.natAbs
  | .double d => d

/-- The integer that the number stands for, if it is one. -/
def toInt? : Number → Option Int
  | .int n => some n
  | .double d => d.toInt?

theorem compare_self (a : Number) : a.compare a = .eq := by simp [compare]

end Number

namespace Json

mutual

/-- Equality of values in which numbers count by what they stand for. -/
def same : Json → Json → Bool
  | .null, .null => true
  | .bool a, .bool b => a == b
  | .number a, .number b => a.compare b = .eq
  | .string s, .string t => s == t
  | .array xs, .array ys => sameItems xs ys
  | .object xs, .object ys => sameMembers xs ys
  | _, _ => false

def sameItems : List Json → List Json → Bool
  | [], [] => true
  | x :: xs, y :: ys => same x y && sameItems xs ys
  | _, _ => false

def sameMembers : List (String × Json) → List (String × Json) → Bool
  | [], [] => true
  | (k, x) :: xs, (l, y) :: ys => k == l && same x y && sameMembers xs ys
  | _, _ => false

end

mutual

/-- The number of values in a value, itself included. -/
def size : Json → Nat
  | .array items => sizeOfItems items + 1
  | .object members => sizeOfMembers members + 1
  | _ => 1

def sizeOfItems : List Json → Nat
  | [] => 0
  | item :: rest => item.size + sizeOfItems rest

def sizeOfMembers : List (String × Json) → Nat
  | [] => 0
  | (_, value) :: rest => value.size + sizeOfMembers rest

end

end Json

end ResourceKinds
