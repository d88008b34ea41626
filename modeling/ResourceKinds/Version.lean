namespace ResourceKinds

inductive Stability where
  | alpha | beta | stable
deriving DecidableEq

namespace Stability

def name : Stability → String
  | .alpha => "alpha"
  | .beta => "beta"
  | .stable => "stable"

def rank : Stability → Nat
  | .alpha => 0
  | .beta => 1
  | .stable => 2

end Stability

/-- A parsed version name. The minor number counts alpha and beta releases; it is zero for a stable
version. -/
structure KubeVersion where
  major : Nat
  stability : Stability
  minor : Nat
deriving DecidableEq

namespace KubeVersion

def isDigit (c : Char) : Bool := '0' ≤ c && c ≤ '9'

def digitValue (c : Char) : Nat := c.toNat - '0'.toNat

def numberOf (digits : List Char) : Nat := digits.foldl (fun n c => n * 10 + digitValue c) 0

/-- A decimal number from 1 below `2 ^ 32` without leading zeros. -/
def positive? (digits : List Char) : Option Nat :=
  match digits with
  | [] => none
  | first :: _ =>
    if first ≠ '0' && digits.all isDigit && numberOf digits < UInt32.size then some (numberOf digits) else none

/-- The release suffix: nothing, or `alpha` or `beta` with a number. -/
def release? : List Char → Option (Stability × Nat)
  | [] => some (.stable, 0)
  | 'a' :: 'l' :: 'p' :: 'h' :: 'a' :: digits => (positive? digits).map (.alpha, ·)
  | 'b' :: 'e' :: 't' :: 'a' :: digits => (positive? digits).map (.beta, ·)
  | _ => none

def parseChars? : List Char → Option KubeVersion
  | 'v' :: rest => do
    let major ← positive? (rest.takeWhile isDigit)
    let (stability, minor) ← release? (rest.dropWhile isDigit)
    return ⟨major, stability, minor⟩
  | _ => none

def parse? (name : String) : Option KubeVersion := parseChars? name.toList

def render (version : KubeVersion) : String :=
  match version.stability with
  | .stable => "v" ++ toString version.major
  | stability => "v" ++ toString version.major ++ stability.name ++ toString version.minor

/-- By stability, then by the major and then by the minor number. The greater version is preferred. -/
def compare (a b : KubeVersion) : Ordering :=
  (Ord.compare a.stability.rank b.stability.rank).then
    ((Ord.compare a.major b.major).then (Ord.compare a.minor b.minor))

end KubeVersion

/-- The order of preference among names. Version names come first, the greatest of them foremost;
all other names follow in code point order. -/
def comparePriority (a b : String) : Ordering :=
  match KubeVersion.parse? a, KubeVersion.parse? b with
  | some a, some b => b.compare a
  | some _, none => .lt
  | none, some _ => .gt
  | none, none => Ord.compare a b

/-- The first name that no other one is preferred to. -/
def highestPriority? : List String → Option String
  | [] => none
  | name :: rest => some (rest.foldl (fun best other => if comparePriority best other = .gt then other else best) name)

def sortByPriority (names : List String) : List String :=
  names.mergeSort fun a b => comparePriority a b ≠ .gt

end ResourceKinds
