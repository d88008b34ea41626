import ResourceKinds.Decimal.Layout
import ResourceKinds.Json.Basic

namespace ResourceKinds.Json

/-- Exponents from -5 to 15 are written in full, and a positive exponent carries its sign. -/
def doubleLayout : Layout := ⟨-5, 16, true⟩

def numberText : Number → String
  | .int n => toString n
  | .double d => doubleLayout.render d

def hexDigit (n : Nat) : Char := if n < 10 then Char.ofNat (48 + n) else Char.ofNat (87 + n)

/-- Quotes, backslashes and controls below U+0020 are escaped, nothing else. -/
def escapeChar (c : Char) : String :=
  match c with
  | '\"' => "\\\""
  | '\\' => "\\\\"
  | '\n' => "\\n"
  | '\r' => "\\r"
  | '\t' => "\\t"
  | '\x08' => "\\b"
  | '\x0c' => "\\f"
  | c =>
    if c.toNat < 32 then "\\u00" ++ String.ofList [hexDigit (c.toNat / 16), hexDigit (c.toNat % 16)]
    else String.singleton c

def quote (s : String) : String :=
  "\"" ++ s.foldl (fun text c => text ++ escapeChar c) "" ++ "\""

mutual

/-- The text without any blank. -/
def compact : Json → String
  | .null => "null"
  | .bool b => if b then "true" else "false"
  | .number n => numberText n
  | .string s => quote s
  | .array items => "[" ++ compactItems items ++ "]"
  | .object members => "\x7b" ++ compactMembers members ++ "\x7d"

def compactItems : List Json → String
  | [] => ""
  | item :: rest => compact item ++ (if rest.isEmpty then "" else ",") ++ compactItems rest

def compactMembers : List (String × Json) → String
  | [] => ""
  | (name, value) :: rest =>
    quote name ++ ":" ++ compact value ++ (if rest.isEmpty then "" else ",") ++ compactMembers rest

end

def indentation (depth : Nat) : String := String.ofList (List.replicate (2 * depth) ' ')

mutual

/-- One item or member per line, two spaces deeper than what encloses it. -/
def indented (depth : Nat) : Json → String
  | .array [] => "[]"
  | .array items => "[\n" ++ indentedItems (depth + 1) items ++ indentation depth ++ "]"
  | .object [] => "\x7b\x7d"
  | .object members => "\x7b\n" ++ indentedMembers (depth + 1) members ++ indentation depth ++ "\x7d"
  | .null => "null"
  | .bool b => if b then "true" else "false"
  | .number n => numberText n
  | .string s => quote s

def indentedItems (depth : Nat) : List Json → String
  | [] => ""
  | item :: rest =>
    indentation depth ++ indented depth item ++ (if rest.isEmpty then "\n" else ",\n") ++ indentedItems depth rest

def indentedMembers (depth : Nat) : List (String × Json) → String
  | [] => ""
  | (name, value) :: rest =>
    indentation depth ++ quote name ++ ": " ++ indented depth value ++
      (if rest.isEmpty then "\n" else ",\n") ++ indentedMembers depth rest

end

def pretty (value : Json) : String := indented 0 value

end ResourceKinds.Json
