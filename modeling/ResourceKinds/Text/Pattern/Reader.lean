import ResourceKinds.Text.Pattern.Basic

namespace ResourceKinds.Text

namespace PatternReader

structure Flags where
  caseless : Bool
  /-- Anchors hold at the ends of lines. -/
  multiline : Bool
  /-- The point stands for line breaks, too. -/
  dotAll : Bool
  /-- Blanks and comments mean nothing. -/
  spaced : Bool
deriving DecidableEq

/-- What is known of the groups opened so far: their names, by number. -/
abbrev GroupNames := List (Nat × Option String)

/-- The characters that are left, and the groups opened so far. -/
structure ReaderState where
  rest : List Char
  groups : GroupNames
  flags : Flags

abbrev Reader := StateT ReaderState Option

def peek : Reader (Option Char) := do return (← get).rest.head?

def skip (n : Nat) : Reader Unit := modify fun s => { s with rest := s.rest.drop n }

def accept (text : String) : Reader Bool := do
  if text.toList.isPrefixOf (← get).rest then
    skip text.length
    return true
  else return false

def expect (text : String) : Reader Unit := do
  unless ← accept text do failure

def takeWhile (keep : Char → Bool) : Reader (List Char) := do
  let taken := (← get).rest.takeWhile keep
  skip taken.length
  return taken

/-- The text up to a mark, which is taken along. -/
def takeUntil (mark : Char) : Reader (List Char) := do
  let taken ← takeWhile (· ≠ mark)
  expect (String.singleton mark)
  return taken

def decimalDigit (c : Char) : Bool := '0' ≤ c && c ≤ '9'

def decimal (digits : List Char) : Nat := digits.foldl (fun n c => n * 10 + (c.toNat - 48)) 0

def hexValue? (c : Char) : Option Nat :=
  if decimalDigit c then some (c.toNat - 48)
  else if 'a' ≤ c && c ≤ 'f' then some (c.toNat - 87)
  else if 'A' ≤ c && c ≤ 'F' then some (c.toNat - 55)
  else none

def charOfHex? (digits : List Char) : Option Char := do
  if digits.isEmpty || 8 < digits.length then none
  let point ← digits.foldlM (fun n c => (hexValue? c).map (n * 16 + ·)) 0
  if point.isValidChar then some (Char.ofNat point) else none

/-- A character given by so many hexadecimal digits, or by any number of them in braces. -/
def hexChar (count : Nat) : Reader Char := do
  if ← accept "\x7b" then
    let digits ← takeUntil '\x7d'
    charOfHex? digits
  else
    let digits := (← get).rest.take count
    if digits.length < count then failure
    skip count
    charOfHex? digits

/-- What an escape stands for. -/
inductive Escape where
  | char (c : Char)
  | set (set : CharSet)
  | anchor (anchor : Anchor)
  | again (index : Nat)
  | named (name : String)

/-- An escape after its backslash. -/
def escape : Reader Escape := do
  let some c ← peek | failure
  if decimalDigit c then
    let digits ← takeWhile decimalDigit
    return .again (decimal digits)
  skip 1
  match c with
  | 'd' => return .set .digit
  | 'D' => return .set (.outside .digit)
  | 'w' => return .set .word
  | 'W' => return .set (.outside .word)
  | 's' => return .set .space
  | 'S' => return .set (.outside .space)
  | 'h' => return .set (.either .digit (.either (.range 'a' 'f') (.range 'A' 'F')))
  | 'H' => return .set (.outside (.either .digit (.either (.range 'a' 'f') (.range 'A' 'F'))))
  | 'A' => return .anchor .textStart
  | 'z' => return .anchor .textEnd
  | 'b' => return .anchor .wordEdge
  | 'B' => return .anchor .noWordEdge
  | 'a' => return .char '\x07'
  | 'e' => return .char '\x1b'
  | 'f' => return .char '\x0c'
  | 'n' => return .char '\n'
  | 'r' => return .char '\r'
  | 't' => return .char '\t'
  | 'v' => return .char '\x0b'
  | 'x' => return .char (← hexChar 2)
  | 'u' => return .char (← hexChar 4)
  | 'U' => return .char (← hexChar 8)
  | 'k' => do
    expect "<"
    return .named (String.ofList (← takeUntil '>'))
  | 'c' => do
    let some letter ← peek | failure
    if letter.isAlpha then
      skip 1
      return .char (Char.ofNat (letter.toUpper.toNat - 64))
    else failure
  | c => if c.isAlpha then failure else return .char c

def posixSet? : String → Option CharSet
  | "alnum" => some (.either .digit (.either (.range 'a' 'z') (.range 'A' 'Z')))
  | "alpha" => some (.either (.range 'a' 'z') (.range 'A' 'Z'))
  | "ascii" => some (.range '\x00' '\x7f')
  | "blank" => some (.ofList [' ', '\t'])
  | "cntrl" => some (.either (.range '\x00' '\x1f') (.single '\x7f'))
  | "digit" => some .digit
  | "graph" => some (.range '!' '~')
  | "lower" => some (.range 'a' 'z')
  | "print" => some (.range ' ' '~')
  | "punct" => some (.except (.range '!' '~') (.either .digit (.either (.range 'a' 'z') (.range 'A' 'Z'))))
  | "space" => some (.ofList [' ', '\t', '\n', '\r', '\x0b', '\x0c'])
  | "upper" => some (.range 'A' 'Z')
  | "word" => some .word
  | "xdigit" => some (.either .digit (.either (.range 'a' 'f') (.range 'A' 'F')))
  | _ => none

/-- A class by name, between its brackets and colons. -/
def posixClass? : Reader (Option CharSet) := do
  let saved ← get
  if ← accept "[:" then
    let negated ← accept "^"
    let name ← takeWhile Char.isAlpha
    if ← accept ":]" then
      match posixSet? (String.ofList name) with
      | some set => return some (if negated then .outside set else set)
      | none => failure
  set saved
  return none

/-- One end of a range. -/
def rangeEnd : Reader Char := do
  let some c ← peek | failure
  skip 1
  if c = '\\' then
    match ← escape with
    | .char c => return c
    | _ => failure
  else return c

/-- What follows the first character of a possible range. -/
def rangeFrom (first : Char) : Reader CharSet := do
  match (← get).rest with
  | '-' :: ']' :: _ => return .single first
  | '-' :: '-' :: _ => return .single first
  | '-' :: _ => do
    skip 1
    let last ← rangeEnd
    if last < first then failure
    return .range first last
  | _ => return .single first

mutual

/-- The members of a class, up to its closing bracket. -/
def classItems : Nat → (isFirst : Bool) → CharSet → Reader CharSet
  | 0, _, _ => failure
  | fuel + 1, isFirst, set => do
    let some c ← peek | failure
    if c = ']' && !isFirst then
      skip 1
      return set
    if ← accept "&&" then return .both set (← classItems fuel false .empty)
    if ← accept "--" then return .except set (← classItems fuel false .empty)
    if ← accept "~~" then
      let other ← classItems fuel false .empty
      return .either (.except set other) (.except other set)
    match ← posixClass? with
    | some named => classItems fuel false (.either set named)
    | none =>
      skip 1
      let item ← match c with
        | '[' => classBody fuel
        | '\\' => match ← escape with
          | .char c => rangeFrom c
          | .set inner => pure inner
          | _ => failure
        | c => rangeFrom c
      classItems fuel false (.either set item)

/-- A class after its opening bracket. -/
def classBody : Nat → Reader CharSet
  | 0 => failure
  | fuel + 1 => do
    let negated ← accept "^"
    let set ← classItems fuel true .empty
    return if negated then .outside set else set

end

def withCase (set : CharSet) : Reader Pattern := do
  return .char (if (← get).flags.caseless then .caseless set else set)

/-- Turns flags on, or off after a minus sign, as the letters say. -/
def setFlags (on : Bool) : List Char → Flags → Option Flags
  | [], flags => some flags
  | c :: rest, flags => match c with
    | '-' => if on then setFlags false rest flags else none
    | 'i' => setFlags on rest { flags with caseless := on }
    | 'm' => setFlags on rest { flags with multiline := on }
    | 's' => setFlags on rest { flags with dotAll := on }
    | 'x' => setFlags on rest { flags with spaced := on }
    | 'U' => setFlags on rest flags
    | 'u' => setFlags on rest flags
    | _ => none

def isFlagChar (c : Char) : Bool := ['i', 'm', 's', 'x', 'U', 'u', '-'].contains c

/-- Passes over blanks and comments where they mean nothing. -/
def skipSpaces : Nat → Reader Unit
  | 0 => return
  | fuel + 1 => do
    if (← get).flags.spaced then
      match ← peek with
      | some '#' =>
        let _ ← takeWhile (· ≠ '\n')
        skipSpaces fuel
      | some c => if c.isWhitespace then do
          skip 1
          skipSpaces fuel
      | none => return

/-- The counts of a repetition in braces; anything else in braces is no repetition. -/
def counts? : Reader (Option (Nat × Option Nat)) := do
  let saved ← get
  skip 1
  let low ← takeWhile decimalDigit
  let counts ← if ← accept "," then do
      let high ← takeWhile decimalDigit
      pure (some (decimal low, if high.isEmpty then none else some (decimal high)))
    else pure (if low.isEmpty then none else some (decimal low, some (decimal low)))
  match counts, ← accept "\x7d" with
  | some counts, true => return some counts
  | _, _ => do
    set saved
    return none

/-- A repetition sign and its counts, if one comes next. -/
def repetition? : Reader (Option (Nat × Option Nat)) := do
  match ← peek with
  | some '*' => do skip 1; return some (0, none)
  | some '+' => do skip 1; return some (1, none)
  | some '?' => do skip 1; return some (0, some 1)
  | some '\x7b' => counts?
  | _ => return none

def isRepeatable : Pattern → Bool
  | .empty => false
  | .ahead _ _ => false
  | .behind _ _ => false
  | _ => true

/-- The repetition of a pattern, if a repetition sign comes next. -/
def repeated? (body : Pattern) : Reader Pattern := do
  match ← repetition? with
  | none => return body
  | some (least, most) =>
    if !isRepeatable body then failure
    let more ← match most with
      | none => pure none
      | some most => if most < least then failure else pure (some (most - least))
    let greedy := !(← accept "?")
    let loop := Pattern.loop body least more greedy
    if ← accept "+" then return .atomic loop else return loop

def isNameChar (c : Char) : Bool := c.isAlphanum || c = '_'

/-- Opens a group, with its name if it has one; no two groups have the same name. -/
def openGroup (name : Option String) : Reader Nat := do
  let s ← get
  if name.isSome && s.groups.any (·.2 = name) then failure
  let index := s.groups.length + 1
  set { s with groups := (index, name) :: s.groups }
  return index

def groupName : Reader String := do
  let name ← takeUntil '>'
  if name.isEmpty || !name.all isNameChar || name.head?.any decimalDigit then failure
  return String.ofList name

mutual

/-- Alternatives, up to the end of the group or of the text. -/
def alternatives : Nat → Reader Pattern
  | 0 => failure
  | fuel + 1 => do
    let first ← sequence fuel .empty
    if ← accept "|" then return .either first (← alternatives fuel) else return first

def sequence : Nat → Pattern → Reader Pattern
  | 0, _ => failure
  | fuel + 1, done => do
    skipSpaces fuel
    match ← peek with
    | none => return done
    | some '|' => return done
    | some ')' => return done
    | some _ => do
      let piece ← repeated? (← atom fuel)
      sequence fuel (.seq done piece)

/-- One character, class, anchor or group. A repetition sign is none of these. -/
def atom : Nat → Reader Pattern
  | 0 => failure
  | fuel + 1 => do
    let some c ← peek | failure
    let flags := (← get).flags
    match c with
    | '*' => return .empty
    | '+' => return .empty
    | '?' => return .empty
    | '(' => do
      skip 1
      group fuel
    | '[' => do
      skip 1
      withCase (← classBody fuel)
    | '.' => do
      skip 1
      return .char (if flags.dotAll then .any else .outside (.single '\n'))
    | '^' => do
      skip 1
      return .anchor (if flags.multiline then .lineStart else .textStart)
    | '$' => do
      skip 1
      return .anchor (if flags.multiline then .lineEnd else .textEnd)
    | '\\' => do
      skip 1
      match ← escape with
      | .char c => withCase (.single c)
      | .set set => return .char set
      | .anchor anchor => return .anchor anchor
      | .again index => return .again index
      | .named name => match (← get).groups.find? (·.2 = some name) with
        | some (index, _) => return .again index
        | none => failure
    | c => do
      skip 1
      withCase (.single c)

/-- A group after its opening parenthesis. -/
def group : Nat → Reader Pattern
  | 0 => failure
  | fuel + 1 => do
    let flags := (← get).flags
    let rest (flags : Flags) : Reader Pattern := do
      let body ← alternatives fuel
      expect ")"
      modify fun s => { s with flags := flags }
      return body
    if ← accept "?:" then rest flags
    else if ← accept "?=" then return .ahead false (← rest flags)
    else if ← accept "?!" then return .ahead true (← rest flags)
    else if ← accept "?<=" then return .behind false (← rest flags)
    else if ← accept "?<!" then return .behind true (← rest flags)
    else if ← accept "?>" then return .atomic (← rest flags)
    else if ← accept "?#" then do
      let _ ← takeUntil ')'
      return .seq .empty .empty
    else if ← accept "?P=" then do
      let name := String.ofList (← takeUntil ')')
      match (← get).groups.find? (·.2 = some name) with
      | some (index, _) => return .again index
      | none => failure
    else if (← accept "?P<") || (← accept "?<") then do
      let index ← openGroup (some (← groupName))
      return .group index (← rest flags)
    else if ← accept "?" then do
      let letters ← takeWhile isFlagChar
      if letters.isEmpty then failure
      let changed ← setFlags true letters flags
      modify fun s => { s with flags := changed }
      if ← accept ")" then return .seq .empty .empty
      expect ":"
      rest flags
    else do
      let index ← openGroup none
      return .group index (← rest flags)

end

end PatternReader

namespace Pattern

/-- The highest number of a group that is asked for again. -/
def highestAgain : Pattern → Nat
  | .again index => index
  | .seq a b => max a.highestAgain b.highestAgain
  | .either a b => max a.highestAgain b.highestAgain
  | .loop a _ _ _ => a.highestAgain
  | .group _ a => a.highestAgain
  | .ahead _ a => a.highestAgain
  | .behind _ a => a.highestAgain
  | .atomic a => a.highestAgain
  | _ => 0

/-- The pattern with no record of its groups. -/
def withoutGroups : Pattern → Pattern
  | .group _ a => a.withoutGroups
  | .seq a b => .seq a.withoutGroups b.withoutGroups
  | .either a b => .either a.withoutGroups b.withoutGroups
  | .loop a least more greedy => .loop a.withoutGroups least more greedy
  | .ahead negated a => .ahead negated a.withoutGroups
  | .behind negated a => .behind negated a.withoutGroups
  | .atomic a => .atomic a.withoutGroups
  | pattern => pattern

/-- The pattern of a text. Every step of the reader takes a character or goes one level deeper,
and a level begins with a character. -/
def ofText? (text : String) : Option Pattern := do
  let start := ⟨text.toList, [], ⟨false, false, false, false⟩⟩
  let (pattern, state) ← (PatternReader.alternatives (4 * text.length + 8)).run start
  if !state.rest.isEmpty then none
  else if state.groups.length < pattern.highestAgain then none
  else if pattern.highestAgain = 0 then some pattern.withoutGroups
  else some pattern

end Pattern

end ResourceKinds.Text
