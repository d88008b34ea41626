import ResourceKinds.Json.Basic
import ResourceKinds.Decimal.Reader
import ResourceKinds.Text.Pattern.Reader
import ResourceKinds.Text.Scan

namespace ResourceKinds.Toml

open Text (Scan)
open Text.Scan

def isBlank (c : Char) : Bool := c = ' ' || c = '\t'

/-- Controls are not allowed in comments and texts, tabs excepted. -/
def isControl (c : Char) : Bool := (c.toNat < 0x20 && c ≠ '\t') || c.toNat = 0x7F

def skipBlanks : Scan Unit := do let _ ← takeWhile isBlank

/-- The rest of a line: blanks and a comment at most. -/
def endLine : Scan Unit := do
  skipBlanks
  if ← accept "#" then
    let comment ← takeWhile (· ≠ '\n')
    let comment := if comment.getLast? = some '\r' then comment.dropLast else comment
    if comment.any isControl then failure
    unless (← atEnd) || (← accept "\n") do failure
  else unless (← atEnd) || (← accept "\n") || (← accept "\r\n") do failure

/-- Passes over blanks, line breaks and comments. -/
def skipLines : Nat → Scan Unit
  | 0 => return
  | fuel + 1 => do
    skipBlanks
    match ← peek with
    | some '#' => do
      endLine
      skipLines fuel
    | some '\n' => do
      skip 1
      skipLines fuel
    | some '\r' => do
      expect "\r\n"
      skipLines fuel
    | _ => return

/-- The character of an escape, after its backslash. -/
def escape : Scan Char := do
  match ← next with
  | 'b' => return '\x08'
  | 't' => return '\t'
  | 'n' => return '\n'
  | 'f' => return '\x0c'
  | 'r' => return '\r'
  | '\"' => return '\"'
  | '\\' => return '\\'
  | 'u' => point 4
  | 'U' => point 8
  | _ => failure
where
  point (count : Nat) : Scan Char := do
    let digits := (← get).take count
    if digits.length < count then failure
    skip count
    Text.PatternReader.charOfHex? digits

/-- A text on one line, after its opening quote. -/
def basicText : Nat → List Char → Scan (List Char)
  | 0, _ => failure
  | fuel + 1, done => do
    match ← next with
    | '\"' => return done.reverse
    | '\\' => basicText fuel ((← escape) :: done)
    | c => if isControl c then failure else basicText fuel (c :: done)

def literalText : Scan (List Char) := do
  let text ← takeWhile (· ≠ '\x27')
  expect "'"
  if text.any isControl then failure
  return text

def isLineControl (c : Char) : Bool := isControl c && c ≠ '\n' && c ≠ '\r'

/-- Passes over the line break and the blanks after a backslash at the end of a line. -/
def skipBreak : Scan Bool := do
  let saved ← get
  skipBlanks
  if (← accept "\n") || (← accept "\r\n") then
    let _ ← takeWhile fun c => isBlank c || c = '\n' || c = '\r'
    return true
  else
    set saved
    return false

/-- A text of several lines, after its opening quotes. It may end in up to two quotes of its own. -/
def longText (quote : Char) : Nat → List Char → Scan (List Char)
  | 0, _ => failure
  | fuel + 1, done => do
    let c ← next
    if c = quote && ([quote, quote]).isPrefixOf (← get) then
      skip 2
      let more := ((← get).takeWhile (· = quote)).take 2
      skip more.length
      return done.reverse ++ more
    else if c = '\\' && quote = '\"' then
      if ← skipBreak then longText quote fuel done else longText quote fuel ((← escape) :: done)
    else if isLineControl c then failure
    else longText quote fuel (c :: done)

/-- A text in quotes of any sort. -/
def quotedText : Scan String := do
  let fuel := (← get).length + 1
  let long (quote : Char) : Scan (List Char) := do
    let _ ← accept "\r"
    let _ ← accept "\n"
    longText quote fuel []
  let chars ← if ← accept "\"\"\"" then long '\"'
    else if ← accept "'''" then long '\x27'
    else if ← accept "\"" then basicText fuel []
    else do
      expect "'"
      literalText
  return String.ofList chars

def isKeyChar (c : Char) : Bool := c.isAlphanum || c = '_' || c = '-'

/-- One part of a key, bare or in quotes. -/
def keyPart : Scan String := do
  match ← peek with
  | some '\"' => do
    skip 1
    return String.ofList (← basicText ((← get).length + 1) [])
  | some '\x27' => do
    skip 1
    return String.ofList (← literalText)
  | _ => do
    let chars ← takeWhile isKeyChar
    if chars.isEmpty then failure
    return String.ofList chars

/-- A key of one or more parts with dots between them. -/
def key : Nat → Scan (List String)
  | 0 => failure
  | fuel + 1 => do
    skipBlanks
    let part ← keyPart
    skipBlanks
    if ← accept "." then return part :: (← key fuel) else return [part]

/-- Digits with single underscores between them. -/
def plainDigits? (isDigit : Char → Bool) (text : List Char) : Option (List Char) :=
  let digits := text.filter (· ≠ '_')
  let paired := (text.zip (text.drop 1)).all fun (a, b) => !(a = '_' && b = '_')
  if !digits.isEmpty && digits.all isDigit && paired && text.head? ≠ some '_' && text.getLast? ≠ some '_' then
    some digits
  else none

def isHex (c : Char) : Bool := (Text.PatternReader.hexValue? c).isSome

def naturalOf (base : Nat) (digits : List Char) : Nat :=
  digits.foldl (fun n c => n * base + (Text.PatternReader.hexValue? c).getD 0) 0

/-- Digits without a zero at the front, unless that is all. -/
def decimalDigits? (text : List Char) : Option (List Char) := do
  let digits ← plainDigits? DecimalText.isDigit text
  if 1 < digits.length && digits.head? = some '0' then none else some digits

def integer? (text : List Char) : Option Int := do
  let unsigned (base : Nat) (isOwn : Char → Bool) (digits : List Char) : Option Int := do
    DecimalText.int64? false (naturalOf base (← plainDigits? isOwn digits))
  match text with
  | '0' :: 'x' :: digits => unsigned 16 isHex digits
  | '0' :: 'o' :: digits => unsigned 8 (fun c => '0' ≤ c && c ≤ '7') digits
  | '0' :: 'b' :: digits => unsigned 2 (fun c => c = '0' || c = '1') digits
  | text =>
    let (negative, digits) := DecimalText.splitSign text
    DecimalText.int64? negative (naturalOf 10 (← decimalDigits? digits))

/-- The part after the whole number: a fraction, an exponent or both. -/
def fractionPart? (text : List Char) : Option (List Char) :=
  let exponentPart? (text : List Char) : Option (List Char) :=
    match text with
    | [] => some []
    | c :: rest =>
      if c = 'e' || c = 'E' then
        let (sign, rest) := match rest with
          | '-' :: rest => (['-'], rest)
          | '+' :: rest => ([], rest)
          | rest => ([], rest)
        (plainDigits? DecimalText.isDigit rest).map fun digits => 'e' :: sign ++ digits
      else none
  match text with
  | '.' :: rest =>
    let digits := rest.takeWhile fun c => DecimalText.isDigit c || c = '_'
    do
      let fraction ← plainDigits? DecimalText.isDigit digits
      let exponent ← exponentPart? (rest.drop digits.length)
      return '.' :: fraction ++ exponent
  | [] => none
  | text => exponentPart? text

def float? (text : List Char) : Option Double :=
  let (negative, rest) := DecimalText.splitSign text
  let signed (d : Double) : Double := if negative then d.neg else d
  match rest with
  | ['i', 'n', 'f'] => some (signed .infinity)
  | ['n', 'a', 'n'] => some (signed .notANumber)
  | rest => do
    let whole := rest.takeWhile fun c => DecimalText.isDigit c || c = '_'
    let digits ← decimalDigits? whole
    let fraction ← fractionPart? (rest.drop whole.length)
    let decimal ← DecimalText.parse? (digits ++ fraction)
    return signed (.ofFloat decimal.nearest)

def datePattern : Option Text.Pattern := Text.Pattern.ofText? <|
  "^([0-9]\x7b4\x7d-[0-9]\x7b2\x7d-[0-9]\x7b2\x7d([Tt ][0-9]\x7b2\x7d:[0-9]\x7b2\x7d:[0-9]\x7b2\x7d(\\.[0-9]+)?" ++
  "([Zz]|[+-][0-9]\x7b2\x7d:[0-9]\x7b2\x7d)?)?|[0-9]\x7b2\x7d:[0-9]\x7b2\x7d:[0-9]\x7b2\x7d(\\.[0-9]+)?)\\z"

/-- The text of a date and time, with the same marks however it is written. -/
def dateText (shown : String) : String :=
  shown.map fun c => if c = ' ' || c = 't' then 'T' else if c = 'z' then 'Z' else c

/-- A value without quotes or brackets. -/
def bareValue : Scan Json := do
  let isBare (c : Char) : Bool := c.isAlphanum || ['_', '-', '+', '.', ':'].contains c
  let mut text ← takeWhile isBare
  if text.length = 10 && text.count '-' = 2 && (← get).head? = some ' ' && ((← get)[1]?).any DecimalText.isDigit then
    skip 1
    text := text ++ ' ' :: (← takeWhile isBare)
  let shown := String.ofList text
  if shown = "true" then return .bool true
  if shown = "false" then return .bool false
  match integer? text, float? text with
  | some n, _ => return .number (.int n)
  | none, some d => return .number (.double d)
  | none, none => if datePattern.any (·.isFoundIn shown) then return .string (dateText shown) else failure

/-- A table under construction, which more entries may still be put into or not. -/
inductive Entry where
  | value (content : Json)
  /-- A table with a header of its own, or one named on the way to another. -/
  | table (isHeaded : Bool) (isDotted : Bool) (members : List (String × Entry))
  | tables (items : List (List (String × Entry)))
deriving Inhabited

namespace Entry

/-- Changes the entry of a name, or adds it. -/
def alter (change : Option Entry → Option Entry) (name : String) : List (String × Entry) → Option (List (String × Entry))
  | [] => (change none).map fun entry => [(name, entry)]
  | (key, entry) :: rest =>
    if key = name then (change (some entry)).map fun entry => (key, entry) :: rest
    else (alter change name rest).map ((key, entry) :: ·)

/-- Changes the members of the last item of a list of tables. -/
def alterLast (change : List (String × Entry) → Option (List (String × Entry))) :
    List (List (String × Entry)) → Option (List (List (String × Entry)))
  | [] => none
  | [last] => (change last).map fun last => [last]
  | item :: rest => (alterLast change rest).map (item :: ·)

/-- Changes the table at a path of headers. Tables on the way are made where there are none. -/
def within (change : List (String × Entry) → Option (List (String × Entry))) :
    List String → List (String × Entry) → Option (List (String × Entry))
  | [], members => change members
  | name :: rest, members =>
    alter (fun
      | none => (within change rest []).map (.table false false)
      | some (.table isHeaded isDotted inner) => (within change rest inner).map (.table isHeaded isDotted)
      | some (.tables items) => (alterLast (within change rest) items).map .tables
      | some (.value _) => none) name members

/-- Opens the table with a header. No table is opened twice. -/
def openTable (name : String) (members : List (String × Entry)) : Option (List (String × Entry)) :=
  alter (fun
    | none => some (.table true false [])
    | some (.table false false inner) => some (.table true false inner)
    | _ => none) name members

/-- Opens one more table of a list. -/
def openItem (name : String) (members : List (String × Entry)) : Option (List (String × Entry)) :=
  alter (fun
    | none => some (.tables [[]])
    | some (.tables items) => some (.tables (items ++ [[]]))
    | _ => none) name members

/-- Puts a value under a key of one or more parts, which must be new. -/
def assign (content : Json) : List String → List (String × Entry) → Option (List (String × Entry))
  | [], _ => none
  | [name], members => alter (fun
      | none => some (.value content)
      | some _ => none) name members
  | name :: rest, members => alter (fun
      | none => (assign content rest []).map (.table false true)
      | some (.table false _ inner) => (assign content rest inner).map (.table false true)
      | _ => none) name members

mutual

def toJson : Entry → Json
  | .value content => content
  | .table _ _ members => .object (Table.ofList (membersToJson members))
  | .tables items => .array (itemsToJson items)

def membersToJson : List (String × Entry) → List (String × Json)
  | [] => []
  | (name, entry) :: rest => (name, entry.toJson) :: membersToJson rest

def itemsToJson : List (List (String × Entry)) → List Json
  | [] => []
  | item :: rest => .object (Table.ofList (membersToJson item)) :: itemsToJson rest

end

end Entry

mutual

def value : Nat → Scan Json
  | 0 => failure
  | fuel + 1 => do
    match ← peek with
    | some '\"' => return .string (← quotedText)
    | some '\x27' => return .string (← quotedText)
    | some '[' => do
      skip 1
      return .array (← items fuel)
    | some '\x7b' => do
      skip 1
      skipBlanks
      if ← accept "\x7d" then return .object []
      let members ← inlineMembers fuel []
      return (Entry.table false false members).toJson
    | _ => bareValue

/-- The items of a list, up to its closing bracket. -/
def items : Nat → Scan (List Json)
  | 0 => failure
  | fuel + 1 => do
    skipLines fuel
    if ← accept "]" then return []
    let item ← value fuel
    skipLines fuel
    if ← accept "," then return item :: (← items fuel)
    expect "]"
    return [item]

/-- The members of a table on one line, up to its closing brace. -/
def inlineMembers : Nat → List (String × Entry) → Scan (List (String × Entry))
  | 0, _ => failure
  | fuel + 1, members => do
    let path ← key fuel
    expect "="
    skipBlanks
    let content ← value fuel
    let members ← Entry.assign content path members
    skipBlanks
    if ← accept "," then inlineMembers fuel members
    else do
      expect "\x7d"
      return members

end

/-- Reads the lines of a document into the table that is open. -/
def lines : Nat → List String → List (String × Entry) → Scan (List (String × Entry))
  | 0, _, _ => failure
  | fuel + 1, current, root => do
    skipLines (fuel + 1)
    if ← atEnd then return root
    if ← accept "[[" then
      let path ← key fuel
      expect "]]"
      endLine
      lines fuel path (← Entry.within (Entry.openItem (path.getLast?.getD "")) path.dropLast root)
    else if ← accept "[" then
      let path ← key fuel
      expect "]"
      endLine
      lines fuel path (← Entry.within (Entry.openTable (path.getLast?.getD "")) path.dropLast root)
    else
      let path ← key fuel
      expect "="
      skipBlanks
      let content ← value fuel
      endLine
      lines fuel current (← Entry.within (Entry.assign content path) current root)

/-- The object of a whole document. Each step takes a character or ends a line. -/
def read? (text : String) : Option (Fields Json) := do
  let chars := match text.toList with
    | '\ufeff' :: rest => rest
    | chars => chars
  let (root, _) ← (lines (2 * chars.length + 4) [] []).run chars
  return Table.ofList (Entry.membersToJson root)

end ResourceKinds.Toml
