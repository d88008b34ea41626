import ResourceKinds.Text.CaseTable

namespace ResourceKinds.Text

private def lowerPoint (point : Nat) : Nat :=
  match lowerRanges.find? fun (first, last, step, _) => first ≤ point && point ≤ last && (point - first) % step = 0 with
  | some (_, _, _, shift) => ((point : Int) + shift).toNat
  | none => point

/-- The dotted capital I is the only character whose lower case is longer than one character. -/
def lowerChar (c : Char) : List Char :=
  if c.toNat = 0x130 then ['i', Char.ofNat 0x307] else [Char.ofNat (lowerPoint c.toNat)]

private def within (ranges : List (Nat × Nat)) (c : Char) : Bool :=
  ranges.any fun (first, last) => first ≤ c.toNat && c.toNat ≤ last

/-- The next character that is not passed over has case. -/
def meetsCased : List Char → Bool
  | [] => false
  | c :: rest => if within passedOverRanges c then meetsCased rest else within casedRanges c

/-- The lower case of the rest of a text after the characters `seen`, the latest first. -/
def lowerFrom (seen : List Char) : List Char → List Char
  | [] => []
  | c :: rest =>
    let lower :=
      if c.toNat = 0x3A3 then [Char.ofNat (if meetsCased seen && !meetsCased rest then 0x3C2 else 0x3C3)]
      else lowerChar c
    lower ++ lowerFrom (c :: seen) rest

/-- A capital sigma that ends a word becomes a final sigma. -/
def lowercase (text : String) : String := String.ofList (lowerFrom [] text.toList)

end ResourceKinds.Text
