import ResourceKinds.Yaml.Node
import ResourceKinds.Text.Pattern.Reader
import ResourceKinds.Text.Split

namespace ResourceKinds.Yaml

/-- The rest of a document, and the column at which it begins. -/
structure Cursor where
  rest : List Char
  column : Nat

/-- Takes some characters off the front of a document. -/
abbrev Reading := StateT Cursor Option

namespace Reading

def peek : Reading (Option Char) := do return (← get).rest.head?

def column : Reading Nat := do return (← get).column

def next : Reading Char := do
  match (← get) with
  | ⟨[], _⟩ => failure
  | ⟨c :: rest, column⟩ => do
    set (Cursor.mk rest (if c = '\n' then 0 else column + 1))
    return c

/-- Takes off characters of one line. -/
def takeWhile (keep : Char → Bool) : Reading (List Char) := do
  let cursor ← get
  let taken := cursor.rest.takeWhile fun c => c ≠ '\n' && keep c
  set (Cursor.mk (cursor.rest.drop taken.length) (cursor.column + taken.length))
  return taken

def accept (text : String) : Reading Bool := do
  let cursor ← get
  if text.toList.isPrefixOf cursor.rest then
    set (Cursor.mk (cursor.rest.drop text.length) (cursor.column + text.length))
    return true
  else return false

def expect (text : String) : Reading Unit := do
  unless ← accept text do failure

def isBlank (c : Char) : Bool := c = ' ' || c = '\t'

/-- A blank, a line break or the end comes next. -/
def endsWord : List Char → Bool
  | [] => true
  | c :: _ => isBlank c || c = '\n'

def skipBlanks : Reading Unit := do let _ ← takeWhile isBlank

/-- Passes over blanks, comments and line breaks. -/
def skipLines : Nat → Reading Unit
  | 0 => return
  | fuel + 1 => do
    skipBlanks
    match ← peek with
    | some '#' => do
      let _ ← takeWhile fun _ => true
      skipLines fuel
    | some '\n' => do
      let _ ← next
      skipLines fuel
    | _ => return

/-- The document ends here, or at a mark on this line. -/
def atStop : Reading Bool := do
  let cursor ← get
  let marked (mark : String) : Bool := mark.toList.isPrefixOf cursor.rest && endsWord (cursor.rest.drop 3)
  return cursor.rest.isEmpty || (cursor.column = 0 && (marked "---" || marked "..."))

/-- A dash that begins an item of a list. -/
def atDash : Reading Bool := do
  match (← get).rest with
  | '-' :: rest => return endsWord rest
  | _ => return false

/-- Text with the blanks around its line breaks left out. One break stands for a blank, and of
several the first one counts for nothing. -/
def fold (breaks : Nat) : List Char := if breaks = 1 then [' '] else List.replicate (breaks - 1) '\n'

/-- Passes over blanks and line breaks and counts the breaks. -/
def skipBreaks : Nat → Nat → Reading Nat
  | 0, breaks => return breaks
  | fuel + 1, breaks => do
    skipBlanks
    match ← peek with
    | some '\n' => do
      let _ ← next
      skipBreaks fuel (breaks + 1)
    | _ => return breaks

def dropBlanks (done : List Char) : List Char := done.dropWhile isBlank

/-- A text in single quotes after its opening quote; `done` holds what is read, the latest first. -/
def singleQuoted : Nat → List Char → Reading (List Char)
  | 0, _ => failure
  | fuel + 1, done => do
    match ← peek with
    | some '\n' => do
      let breaks ← skipBreaks (fuel + 1) 0
      singleQuoted fuel (fold breaks ++ dropBlanks done)
    | _ => match ← next with
      | '\x27' => if ← accept "'" then singleQuoted fuel ('\x27' :: done) else return done.reverse
      | c => singleQuoted fuel (c :: done)

/-- The character of an escape, after its backslash. -/
def escape : Reading Char := do
  match ← next with
  | '0' => return '\x00'
  | 'a' => return '\x07'
  | 'b' => return '\x08'
  | 't' => return '\t'
  | '\t' => return '\t'
  | 'n' => return '\n'
  | 'v' => return '\x0b'
  | 'f' => return '\x0c'
  | 'r' => return '\r'
  | 'e' => return '\x1b'
  | ' ' => return ' '
  | '\"' => return '\"'
  | '/' => return '/'
  | '\\' => return '\\'
  | 'N' => return '\u0085'
  | '_' => return '\u00a0'
  | 'L' => return '\u2028'
  | 'P' => return '\u2029'
  | 'x' => point 2
  | 'u' => point 4
  | 'U' => point 8
  | _ => failure
where
  point (count : Nat) : Reading Char := do
    let digits := (← get).rest.take count
    if digits.length < count then failure
    expect (String.ofList digits)
    Text.PatternReader.charOfHex? digits

/-- A text in double quotes after its opening quote. -/
def doubleQuoted : Nat → List Char → Reading (List Char)
  | 0, _ => failure
  | fuel + 1, done => do
    match ← peek with
    | some '\n' => do
      let breaks ← skipBreaks (fuel + 1) 0
      doubleQuoted fuel (fold breaks ++ dropBlanks done)
    | _ => match ← next with
      | '\"' => return done.reverse
      | '\\' =>
        if (← peek) = some '\n' then
          let breaks ← skipBreaks (fuel + 1) 0
          doubleQuoted fuel (List.replicate (breaks - 1) '\n' ++ done)
        else doubleQuoted fuel ((← escape) :: done)
      | c => doubleQuoted fuel (c :: done)

def isFlowMark (c : Char) : Bool := [',', '[', ']', '\x7b', '\x7d'].contains c

/-- A colon that ends a key, given what follows it. -/
def endsKey (inFlow : Bool) (rest : List Char) : Bool :=
  endsWord rest || (inFlow && rest.head?.any isFlowMark)

/-- The length of a text without quotes on one line, up to a comment or the end of a key. -/
def plainLength (inFlow : Bool) (previous : Char) : List Char → Nat
  | [] => 0
  | c :: rest =>
    if c = '\n' || (c = ':' && endsKey inFlow rest) || (c = '#' && isBlank previous) || (inFlow && isFlowMark c) then 0
    else plainLength inFlow c rest + 1

/-- A text without quotes may begin here. -/
def beginsPlain (inFlow : Bool) : List Char → Bool
  | [] => false
  | c :: rest =>
    if c = '-' || c = '?' || c = ':' then !endsKey inFlow rest
    else !(endsWord [c] || isFlowMark c ||
      ['#', '&', '*', '!', '|', '>', '\x27', '\"', '%', '@', Char.ofNat 0x60].contains c)

def plainPiece (inFlow : Bool) : Reading (List Char) := do
  let cursor ← get
  let length := plainLength inFlow ' ' cursor.rest
  let piece := (dropBlanks (cursor.rest.take length).reverse).reverse
  set (Cursor.mk (cursor.rest.drop piece.length) (cursor.column + piece.length))
  return piece

/-- The further lines of a text without quotes, which begin at the column `floor` or to the right
of it. -/
def plainLines (inFlow : Bool) (floor : Nat) : Nat → List Char → Reading (List Char)
  | 0, done => return done
  | fuel + 1, done => do
    let saved ← get
    let breaks ← skipBreaks (fuel + 1) 0
    let isOver := breaks = 0 || (← atStop) || (!inFlow && (← column) < floor) || (← peek) = some '#'
    let piece ← if isOver then pure [] else plainPiece inFlow
    if piece.isEmpty then
      set saved
      return done
    else plainLines inFlow floor fuel (done ++ fold breaks ++ piece)

def plain (inFlow : Bool) (floor fuel : Nat) : Reading Node := do
  unless beginsPlain inFlow (← get).rest do failure
  let first ← plainPiece inFlow
  return .scalar (String.ofList (← plainLines inFlow floor fuel first)) true

/-- A text in quotes, if it begins here. -/
def quoted? (fuel : Nat) : Reading (Option (List Char)) := do
  if ← accept "'" then return some (← singleQuoted fuel [])
  else if ← accept "\"" then return some (← doubleQuoted fuel [])
  else return none

/-- What is kept of the line breaks at the end of a block of text. -/
inductive Chomping where
  | strip | clip | keep

structure BlockHeader where
  isFolded : Bool
  chomping : Chomping
  indent? : Option Nat

/-- The mark of a block of text, with what follows it on its line. -/
def blockHeader : Reading BlockHeader := do
  let isFolded := (← next) = '>'
  let marks ← takeWhile fun c => c = '+' || c = '-' || ('1' ≤ c && c ≤ '9')
  let digits := marks.filter Char.isDigit
  let signs := marks.filter fun c => !c.isDigit
  if 1 < digits.length || 1 < signs.length then failure
  let blanks ← takeWhile isBlank
  if (← peek) = some '#' && !blanks.isEmpty then
    let _ ← takeWhile fun _ => true
  unless (← get).rest.isEmpty || (← accept "\n") do failure
  modify fun cursor => ⟨cursor.rest, 0⟩
  let chomping := match signs with
    | ['-'] => Chomping.strip
    | ['+'] => .keep
    | _ => .clip
  return ⟨isFolded, chomping, digits.head?.map fun c => c.toNat - '0'.toNat⟩

/-- The lines of a text, each with whether a break ends it. -/
def linesOf (rest : List Char) : List (List Char × Bool) :=
  let pieces := (Text.split '\n' (String.ofList rest)).map String.toList
  (pieces.dropLast.map fun line => (line, true)) ++
    (match pieces.getLast? with
      | none | some [] => []
      | some line => [(line, false)])

def isEmptyLine (indent : Nat) (line : List Char) : Bool := line.length ≤ indent && line.all (· = ' ')

def spaces (line : List Char) : Nat := (line.takeWhile (· = ' ')).length

/-- The lines of a block of text begin as far to the right as its first line that is not empty. -/
def detectIndent (floor : Nat) (lines : List (List Char × Bool)) : Nat :=
  let filled := (lines.map Prod.fst).find? fun line => !line.all (· = ' ')
  max (max floor 1) ((filled.map spaces).getD 0)

/-- The text of the lines of a block. `breaks` are the breaks since the last line that was not
empty, whose own break is `pending`. -/
def blockText (isFolded : Bool) (chomping : Chomping) :
    (lines : List (List Char × Bool)) → (pending : Bool) → (breaks : Nat) → (indented : Bool) → List Char
  | [], pending, breaks, _ => match chomping with
    | .strip => []
    | .clip => if pending then ['\n'] else []
    | .keep => (if pending then ['\n'] else []) ++ List.replicate breaks '\n'
  | (line, broken) :: rest, pending, breaks, indented =>
    if line.isEmpty then blockText isFolded chomping rest pending (breaks + 1) indented
    else
      let begins := line.head?.any isBlank
      let joint :=
        if isFolded && pending && !indented && !begins then (if breaks = 0 then [' '] else [])
        else if pending then ['\n'] else []
      joint ++ List.replicate breaks '\n' ++ line ++ blockText isFolded chomping rest broken 0 begins

/-- A block of text below a block that begins left of the column `floor`. -/
def blockScalar (floor : Nat) : Reading Node := do
  let header ← blockHeader
  let lines := linesOf (← get).rest
  let indent := match header.indent? with
    | some n => floor - 1 + n
    | none => detectIndent floor lines
  let own := lines.takeWhile fun (line, _) => isEmptyLine indent line || indent ≤ spaces line
  let length := own.foldl (fun length (line, broken) => length + line.length + if broken then 1 else 0) 0
  modify fun cursor => ⟨cursor.rest.drop length, 0⟩
  let content := own.map fun (line, broken) => (line.drop indent, broken)
  let text := blockText header.isFolded header.chomping content false 0 false
  return .scalar (String.ofList text) false

mutual

/-- A value in flow style. -/
def flowNode : Nat → Reading Node
  | 0 => failure
  | fuel + 1 => do
    match ← quoted? fuel with
    | some text => return .scalar (String.ofList text) false
    | none =>
      if ← accept "[" then return .list (← flowItems fuel)
      else if ← accept "\x7b" then return .map (← flowEntries fuel)
      else plain true 0 fuel

/-- The items of a list up to its closing bracket. An item may be a map of one entry. -/
def flowItems : Nat → Reading (List Node)
  | 0 => failure
  | fuel + 1 => do
    skipLines (fuel + 1)
    if ← accept "]" then return []
    let item ← flowNode fuel
    skipLines fuel
    let item ← match item, (← peek) with
      | .scalar key _, some ':' => do
        let _ ← next
        pure (.map [(key, ← flowValue fuel)])
      | item, _ => pure item
    skipLines fuel
    if ← accept "," then return item :: (← flowItems fuel)
    expect "]"
    return [item]

/-- The value after a colon, or nothing. -/
def flowValue : Nat → Reading Node
  | 0 => failure
  | fuel + 1 => do
    skipLines (fuel + 1)
    match ← peek with
    | some ',' => return .scalar "" true
    | some ']' => return .scalar "" true
    | some '\x7d' => return .scalar "" true
    | _ => flowNode fuel

/-- The entries of a map up to its closing brace. A key without a value has nothing as its value. -/
def flowEntries : Nat → Reading (List (String × Node))
  | 0 => failure
  | fuel + 1 => do
    skipLines (fuel + 1)
    if ← accept "\x7d" then return []
    match ← flowNode fuel with
    | .scalar key _ => do
      skipLines fuel
      let content ← if ← accept ":" then flowValue fuel else pure (.scalar "" true)
      skipLines fuel
      if ← accept "," then return (key, content) :: (← flowEntries fuel)
      expect "\x7d"
      return [(key, content)]
    | _ => failure

end

/-- A key with its colon, all on one line. -/
def blockKey (fuel : Nat) : Reading String := do
  let saved ← get
  let key ← match ← quoted? fuel with
    | some text => pure text
    | none => do
      unless beginsPlain false (← get).rest do failure
      plainPiece false
  let length := saved.rest.length - (← get).rest.length
  if (saved.rest.take length).contains '\n' then failure
  skipBlanks
  expect ":"
  unless endsWord (← get).rest do failure
  return String.ofList key

/-- A value that begins on the line of its key. -/
def inlineNode (fuel floor : Nat) : Reading Node := do
  match ← peek with
  | some '|' => blockScalar floor
  | some '>' => blockScalar floor
  | some c =>
    if c = '[' || c = '\x7b' || c = '\x27' || c = '\"' then flowNode fuel else plain false floor fuel
  | none => failure

/-- Nothing but a comment may follow on the line of a value. -/
def atLineEnd : Reading Bool := do
  let before ← column
  skipBlanks
  match ← peek with
  | none => return true
  | some '\n' => return true
  | some '#' => return before < (← column)
  | some _ => return before = 0

mutual

/-- The value that begins at the column `floor` or to the right of it, or nothing. Whatever belongs to a list or map
begins to the right of the column where that begins; but a list under a key may begin below the key itself. -/
def blockNode : Nat → Nat → Reading Node
  | 0, _ => failure
  | fuel + 1, floor => do
    skipLines (fuel + 1)
    let here ← column
    if (← atStop) || here < floor then return .scalar "" true
    if ← atDash then return .list (← blockItems fuel here)
    match (blockKey fuel).run (← get) with
    | some _ => return .map (← blockEntries fuel here)
    | none => do
      let content ← inlineNode fuel floor
      unless ← atLineEnd do failure
      return content

/-- The items of a list whose dashes stand in the column `here`. -/
def blockItems : Nat → Nat → Reading (List Node)
  | 0, _ => failure
  | fuel + 1, here => do
    expect "-"
    let item ← blockNode fuel (here + 1)
    skipLines fuel
    if !(← atStop) && (← column) = here && (← atDash) then return item :: (← blockItems fuel here)
    return [item]

/-- The entries of a map whose keys stand in the column `here`. -/
def blockEntries : Nat → Nat → Reading (List (String × Node))
  | 0, _ => failure
  | fuel + 1, here => do
    let key ← blockKey fuel
    skipBlanks
    let content ← match ← peek with
      | none => pure (.scalar "" true)
      | some '\n' => lowerNode fuel here
      | some '#' => lowerNode fuel here
      | some _ => do
        let content ← inlineNode fuel (here + 1)
        unless ← atLineEnd do failure
        pure content
    skipLines fuel
    if !(← atStop) && (← column) = here then return (key, content) :: (← blockEntries fuel here)
    return [(key, content)]

/-- The value of a key in the column `here`, on the lines below it. -/
def lowerNode : Nat → Nat → Reading Node
  | 0, _ => failure
  | fuel + 1, here => do
    skipLines (fuel + 1)
    if !(← atStop) && (← column) = here && (← atDash) then return .list (← blockItems fuel here)
    else blockNode fuel (here + 1)

end

/-- A whole document, between its marks. -/
def document (fuel : Nat) : Reading Node := do
  skipLines fuel
  let _ ← accept "---"
  let content ← blockNode fuel 0
  skipLines fuel
  let _ ← accept "..."
  skipLines fuel
  unless (← get).rest.isEmpty do failure
  return content

end Reading

/-- The tree of a document. Between two characters that are taken, no more than four readers call
each other. -/
def read? (text : String) : Option Node :=
  let chars := (text.replace "\r\n" "\n").toList
  let chars := match chars with
    | '\ufeff' :: rest => rest
    | chars => chars
  ((Reading.document (4 * chars.length + 8)).run ⟨chars, 0⟩).map Prod.fst

/-- Decodes a document. -/
def decode (decoder : Json.Decoder α) (text : String) : Except Json.Complaint α :=
  match read? text with
  | none => .error ⟨.other "no YAML document", none⟩
  | some node => decoder ⟨false, Json.depthLimit⟩ node.outline

end ResourceKinds.Yaml
