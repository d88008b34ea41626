import ResourceKinds.Json.Printer

namespace ResourceKinds.Toml

private def upperHexDigit (n : Nat) : Char := if n < 10 then Char.ofNat (48 + n) else Char.ofNat (55 + n)

def escapeChar (long : Bool) (c : Char) : String :=
  match c with
  | '\x08' => "\\b"
  | '\t' => "\\t"
  | '\n' => if long then "\n" else "\\n"
  | '\x0c' => "\\f"
  | '\r' => "\\r"
  | '\"' => "\\\""
  | '\\' => "\\\\"
  | c =>
    if c.toNat < 0x20 || c.toNat = 0x7F then
      "\\u00" ++ String.ofList [upperHexDigit (c.toNat / 16), upperHexDigit (c.toNat % 16)]
    else String.singleton c

/-- The length of the longest run of single quotes. -/
def longestQuoteRun (current longest : Nat) : List Char → Nat
  | [] => max current longest
  | c :: rest =>
    if c = '\x27' then longestQuoteRun (current + 1) longest rest else longestQuoteRun 0 (max current longest) rest

def isLiteral (text : List Char) : Bool :=
  text.any (fun c => c = '\"' || c = '\\') && longestQuoteRun 0 0 text < 3 &&
    text.all fun c => c = '\t' || c = '\n' || (0x20 ≤ c.toNat && c.toNat ≠ 0x7F)

/-- A text with quotes or backslashes stands as it is between single quotes, unless it holds controls or three single
quotes in a row. -/
def quoteText (text : String) : String :=
  let chars := text.toList
  let long := chars.contains '\n'
  if isLiteral chars then
    if long then "'''\n" ++ text ++ "'''"
    else if chars.contains '\x27' then "'''" ++ text ++ "'''"
    else "'" ++ text ++ "'"
  else
    let escaped := text.foldl (fun quoted c => quoted ++ escapeChar long c) ""
    if long then "\"\"\"\n" ++ escaped ++ "\"\"\"" else "\"" ++ escaped ++ "\""

def valueText : Json → String
  | .string text => quoteText text
  | value => value.compact

/-- The entries of a table under its header. -/
structure Section where
  header : String
  entries : List (String × Json)

def Section.print (part : Section) : String :=
  part.header ++ "\n" ++ String.join (part.entries.map fun (name, value) => name ++ " = " ++ valueText value ++ "\n")

/-- Sections with an empty line between them. -/
def printSections (parts : List Section) : String := "\n".intercalate (parts.map Section.print)

end ResourceKinds.Toml
