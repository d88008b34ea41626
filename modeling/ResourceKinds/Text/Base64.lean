namespace ResourceKinds.Text.Base64

def letterValue? (c : Char) : Option Nat :=
  if 'A' ≤ c && c ≤ 'Z' then some (c.toNat - 65)
  else if 'a' ≤ c && c ≤ 'z' then some (c.toNat - 71)
  else if '0' ≤ c && c ≤ '9' then some (c.toNat + 4)
  else if c = '+' then some 62
  else if c = '/' then some 63
  else none

/-- The bytes of a text. Bits that fill up the last letter have to be zero. -/
def decode? : List Char → Option (List Nat)
  | [] => some []
  | [a, b, '=', '='] => do
    let a ← letterValue? a
    let b ← letterValue? b
    if b % 16 = 0 then some [a * 4 + b / 16] else none
  | [a, b, c, '='] => do
    let a ← letterValue? a
    let b ← letterValue? b
    let c ← letterValue? c
    if c % 4 = 0 then some [a * 4 + b / 16, b % 16 * 16 + c / 4] else none
  | a :: b :: c :: d :: rest => do
    let a ← letterValue? a
    let b ← letterValue? b
    let c ← letterValue? c
    let d ← letterValue? d
    let more ← decode? rest
    return (a * 4 + b / 16) :: (b % 16 * 16 + c / 4) :: (c % 4 * 64 + d) :: more
  | _ => none

/-- The text whose bytes are written by letters. -/
def decodeText? (text : String) : Option String := do
  let bytes ← decode? text.toList
  String.fromUTF8? ⟨(bytes.map Nat.toUInt8).toArray⟩

end ResourceKinds.Text.Base64
