import ResourceKinds.Json.Printer
import ResourceKinds.Yaml.Scalar

namespace ResourceKinds.Yaml

/-- A positive exponent has no sign. -/
def doubleLayout : Layout := ⟨-5, 16, false⟩

def isPrintable (c : Char) : Bool :=
  let point := c.toNat
  point = 0x0A || (0x20 ≤ point && point ≤ 0x7E) || (0xA0 ≤ point && point ≤ 0xD7FF) ||
    (0xE000 ≤ point && point ≤ 0xFFFD && point ≠ 0xFEFF) || 0x10000 ≤ point

def isBreak (c : Char) : Bool := ['\n', '\r', '\u0085', '\u2028', '\u2029'].contains c

def isBlank (c : Char) : Bool := c = ' ' || c = '\t' || c = '\x00' || isBreak c

def blankNext : List Char → Bool
  | [] => true
  | c :: _ => isBlank c

/-- A colon before a blank or a number sign after one, anywhere in the rest of a text. -/
def hasIndicator (blankBefore : Bool) : List Char → Bool
  | [] => false
  | c :: rest =>
    (c = ':' && blankNext rest) || (c = '#' && blankBefore) || hasIndicator (isBlank c) rest

def startsWithIndicator : List Char → Bool
  | [] => false
  | c :: rest =>
    ['#', ',', '[', ']', '\x7b', '\x7d', '&', '*', '!', '|', '>', '\x27', '\"', '%', '@', '\x60'].contains c ||
      (['?', ':', '-'].contains c && blankNext rest)

def startsWithMarker : List Char → Bool
  | '-' :: '-' :: '-' :: _ => true
  | '.' :: '.' :: '.' :: _ => true
  | _ => false

def hasOuterSpace (text : List Char) : Bool := text.head? = some ' ' || text.getLast? = some ' '

/-- A space directly before a line break. -/
def hasSpaceBeforeBreak : List Char → Bool
  | a :: b :: rest => (a = ' ' && isBreak b) || hasSpaceBeforeBreak (b :: rest)
  | _ => false

/-- A text is written plain where it reads back as itself, in quotes where it does not, and as a literal block if it has
several lines. -/
inductive Style where
  | plain | singleQuoted | doubleQuoted | literal
deriving DecidableEq

def styleOf (text : String) : Style :=
  let chars := text.toList
  let unprintable := chars.any (!isPrintable ·)
  if chars.contains '\n' then
    if unprintable || hasSpaceBeforeBreak chars || chars.getLast? = some ' ' then .doubleQuoted else .literal
  else if unprintable then .doubleQuoted
  else if isAmbiguous text || startsWithMarker chars || startsWithIndicator chars || hasIndicator true chars ||
      hasOuterSpace chars || chars.any isBreak then .singleQuoted
  else .plain

def upperHexDigit (n : Nat) : Char := if n < 10 then Char.ofNat (48 + n) else Char.ofNat (55 + n)

def upperHex (width n : Nat) : String :=
  String.ofList ((List.range width).reverse.map fun place => upperHexDigit (n / Nat.pow 16 place % 16))

def escapeChar (c : Char) : String :=
  match c with
  | '\x00' => "\\0"
  | '\x07' => "\\a"
  | '\x08' => "\\b"
  | '\t' => "\\t"
  | '\n' => "\\n"
  | '\x0b' => "\\v"
  | '\x0c' => "\\f"
  | '\r' => "\\r"
  | '\x1b' => "\\e"
  | '\"' => "\\\""
  | '\\' => "\\\\"
  | '\u0085' => "\\N"
  | '\u2028' => "\\L"
  | '\u2029' => "\\P"
  | c =>
    if isPrintable c then String.singleton c
    else if c.toNat ≤ 0xFF then "\\x" ++ upperHex 2 c.toNat
    else if c.toNat ≤ 0xFFFF then "\\u" ++ upperHex 4 c.toNat
    else "\\U" ++ upperHex 8 c.toNat

def doubleQuoted (text : String) : String :=
  "\"" ++ text.foldl (fun quoted c => quoted ++ escapeChar c) "" ++ "\""

def singleQuoted (text : String) : String :=
  "'" ++ text.foldl (fun quoted c => if c = '\x27' then quoted ++ "''" else quoted.push c) "" ++ "'"

def spaces (n : Nat) : String := String.ofList (List.replicate n ' ')

/-- The mark that opens a literal block. The digit tells the indentation where the text itself
begins with a blank; the sign tells what to do with the line breaks at the end. -/
def literalMark (text : List Char) : String :=
  let digit := if blankNext text then "2" else ""
  let sign := match text.reverse with
    | '\n' :: '\n' :: _ => "+"
    | ['\n'] => "+"
    | '\n' :: _ => ""
    | _ => "-"
  "|" ++ digit ++ sign

/-- The lines of a literal block; empty lines stay empty. -/
def literalLines (indent : Nat) : (startOfLine : Bool) → List Char → String
  | startOfLine, [] => if startOfLine then "" else "\n"
  | startOfLine, c :: rest =>
    if c = '\n' then "\n" ++ literalLines indent true rest
    else (if startOfLine then spaces indent else "") ++ String.singleton c ++ literalLines indent false rest

/-- A text up to the end of its last line; `indent` is that of a literal block. -/
def textLine (indent : Nat) (text : String) : String :=
  match styleOf text with
  | .plain => text ++ "\n"
  | .singleQuoted => singleQuoted text ++ "\n"
  | .doubleQuoted => doubleQuoted text ++ "\n"
  | .literal => literalMark text.toList ++ "\n" ++ literalLines indent true text.toList

/-- Keys of several lines or of more than 128 bytes are announced by a question mark. -/
def isSimpleKey (key : String) : Bool := !key.toList.any isBreak && key.utf8ByteSize ≤ 128

def keyText (key : String) : String :=
  match styleOf key with
  | .plain => key
  | .singleQuoted => singleQuoted key
  | _ => doubleQuoted key

mutual

/-- A value that begins at the given column, up to the end of its last line. Literal blocks are
indented to `literalIndent`. -/
def block (indent literalIndent : Nat) : Json → String
  | .null => "null\n"
  | .bool b => if b then "true\n" else "false\n"
  | .number (.int n) => toString n ++ "\n"
  | .number (.double d) => doubleLayout.render d ++ "\n"
  | .string s => textLine literalIndent s
  | .array [] => "[]\n"
  | .array items => blockItems indent true items
  | .object [] => "\x7b\x7d\n"
  | .object members => blockMembers indent true members

def blockItems (indent : Nat) (first : Bool) : List Json → String
  | [] => ""
  | item :: rest =>
    (if first then "" else spaces indent) ++ "- " ++ block (indent + 2) (indent + 2) item ++
      blockItems indent false rest

def blockMembers (indent : Nat) (first : Bool) : List (String × Json) → String
  | [] => ""
  | (key, value) :: rest =>
    (if first then "" else spaces indent) ++
    (if isSimpleKey key then
      keyText key ++ ":" ++ (match value with
        | .array (_ :: _) => "\n" ++ spaces indent ++ block indent (indent + 2) value
        | .object (_ :: _) => "\n" ++ spaces (indent + 2) ++ block (indent + 2) (indent + 2) value
        | _ => " " ++ block indent (indent + 2) value)
    else
      "? " ++ textLine (indent + 2) key ++ spaces indent ++ ": " ++ block (indent + 2) (indent + 2) value) ++
    blockMembers indent false rest

end

def print (value : Json) : String := block 0 2 value

end ResourceKinds.Yaml
