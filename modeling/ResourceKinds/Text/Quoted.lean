import ResourceKinds.Text.MarkTable

namespace ResourceKinds.Text

def isUnmarked (c : Char) : Bool := unmarkedRanges.any fun (first, last) => first ≤ c.toNat && c.toNat ≤ last

/-- The character as it stands between quotes. Of the first characters all but the controls leave
marks, and need not be looked up. -/
private def quotedChar (c : Char) : String :=
  match c with
  | '\"' => "\\\""
  | '\\' => "\\\\"
  | '\n' => "\\n"
  | '\r' => "\\r"
  | '\t' => "\\t"
  | '\x00' => "\\0"
  | c =>
    if (0x20 ≤ c.toNat && c.toNat < 0x7F) || !isUnmarked c then String.singleton c
    else "\\u\x7b" ++ String.ofList (Nat.toDigits 16 c.toNat) ++ "\x7d"

def quoted (s : String) : String := "\"" ++ s.foldl (fun text c => text ++ quotedChar c) "" ++ "\""

def quotedList (texts : List String) : String := "[" ++ ", ".intercalate (texts.map quoted) ++ "]"

def quotedOption : Option String → String
  | none => "None"
  | some s => "Some(" ++ quoted s ++ ")"

end ResourceKinds.Text
