import ResourceKinds.Text.Split
import ResourceKinds.Text.Pattern.Reader

namespace ResourceKinds.Text.Format

def digits? (text : List Char) : Option Nat :=
  if text.isEmpty || !text.all PatternReader.decimalDigit then none else some (PatternReader.decimal text)

def isLeapYear (year : Nat) : Bool := (year % 4 = 0 && year % 100 ≠ 0) || year % 400 = 0

def daysInMonth (year month : Nat) : Nat :=
  if month = 2 then (if isLeapYear year then 29 else 28)
  else if [4, 6, 9, 11].contains month then 30
  else 31

structure Date where
  year : Nat
  month : Nat
  day : Nat

/-- A date such as `2024-02-29`. -/
def date? (text : List Char) : Option Date :=
  match text with
  | [a, b, c, d, '-', e, f, '-', g, h] => do
    let year ← digits? [a, b, c, d]
    let month ← digits? [e, f]
    let day ← digits? [g, h]
    if 1 ≤ month && month ≤ 12 && 1 ≤ day && day ≤ daysInMonth year month then some ⟨year, month, day⟩ else none
  | _ => none

/-- The minutes by which a clock is ahead of universal time, as `Z` or `+01:00`. -/
def offset? : List Char → Option Int
  | ['Z'] => some 0
  | ['z'] => some 0
  | [sign, a, b, ':', c, d] => do
    let hours ← digits? [a, b]
    let minutes ← digits? [c, d]
    if 23 < hours || 59 < minutes then none
    else if sign = '+' then some (hours * 60 + minutes : Nat)
    else if sign = '-' then some (-(hours * 60 + minutes : Nat))
    else none
  | _ => none

/-- The offset after a fraction of a second, which has at least one digit. -/
def afterFraction? : List Char → Option Int
  | '.' :: rest => if (rest.takeWhile PatternReader.decimalDigit).isEmpty then none
    else offset? (rest.dropWhile PatternReader.decimalDigit)
  | rest => offset? rest

/-- Leap seconds are put at the end of a month, in universal time. -/
def isLeapSecondPlace (date : Date) (hour minute : Nat) (offset : Int) : Bool :=
  let universal : Int := hour * 60 + minute - offset
  let dayShift := universal.fdiv 1440
  universal.fmod 1440 = 1439 &&
    (if dayShift = 0 then date.day = daysInMonth date.year date.month
    else if dayShift = -1 then date.day = 1
    else date.day + 1 = daysInMonth date.year date.month)

/-- A date and a time with an offset, such as `2024-02-29T12:00:00Z`. -/
def isDateTime (text : List Char) : Bool :=
  match date? (text.take 10), text.drop 10 with
  | some date, mark :: a :: b :: ':' :: c :: d :: ':' :: e :: f :: rest =>
    match digits? [a, b], digits? [c, d], digits? [e, f], afterFraction? rest with
    | some hour, some minute, some second, some offset =>
      (mark = 'T' || mark = 't') && hour ≤ 23 && minute ≤ 59 &&
        (second ≤ 59 || (second = 60 && isLeapSecondPlace date hour minute offset))
    | _, _, _, _ => false
  | _, _ => false

/-- A time with an offset. A fraction of a second has six digits. -/
def isTime (text : List Char) : Bool :=
  match text with
  | a :: b :: ':' :: c :: d :: ':' :: e :: f :: rest =>
    match digits? [a, b], digits? [c, d], digits? [e, f] with
    | some hour, some minute, some second =>
      let zone := match rest with
        | '.' :: g :: h :: i :: j :: k :: l :: zone =>
          if [g, h, i, j, k, l].all PatternReader.decimalDigit then zone else rest
        | rest => rest
      hour ≤ 23 && minute ≤ 59 && second ≤ 59 && (offset? zone).isSome
    | _, _, _ => false
  | _ => false

/-- The part before the at sign may not begin or end with a dot or hold two in a row. What follows
the sign is not looked at. -/
def isLocalPart : List Char → Bool
  | '.' :: '.' :: _ => false
  | '.' :: '@' :: _ => false
  | _ :: '@' :: _ => true
  | _ :: rest => isLocalPart rest
  | [] => false

def isEmail (text : List Char) : Bool := text.head? ≠ some '.' && isLocalPart text

/-- Letters, digits, hyphens and dots; beyond ASCII everything that is not blank counts as a letter. -/
def isHostChar (c : Char) : Bool := c.isAlphanum || c = '-' || c = '.' || (0x80 ≤ c.toNat && !isBlank c)

def isHostname (text : List Char) : Bool :=
  !text.isEmpty && text.head? ≠ some '-' && text.getLast? ≠ some '-' && text.length ≤ 255 &&
    text.all isHostChar && (splitChars '.' text).all (·.length ≤ 63)

/-- A number below 256 without leading zeros. -/
def isOctet (text : List Char) : Bool :=
  match digits? text with
  | some n => n < 256 && text.length ≤ 3 && (text.length = 1 || text.head? ≠ some '0')
  | none => false

def isDottedQuad (text : List Char) : Bool :=
  let parts := splitChars '.' text
  parts.length = 4 && parts.all isOctet

/-- Addresses that begin with a zero are refused. -/
def isIpv4 (text : List Char) : Bool := text.head? ≠ some '0' && isDottedQuad text

def isHexGroup (text : List Char) : Bool :=
  !text.isEmpty && text.length ≤ 4 && text.all fun c => (PatternReader.hexValue? c).isSome

/-- How many groups of 16 bits are written, between colons; the last two may be a dotted quad. -/
def groupCount? : List (List Char) → Option Nat
  | [] => some 0
  | [last] => if isHexGroup last then some 1 else if isDottedQuad last then some 2 else none
  | group :: rest => if isHexGroup group then (groupCount? rest).map (· + 1) else none

/-- The parts around the first double colon. -/
def cutDoubleColon? : List Char → Option (List Char × List Char)
  | ':' :: ':' :: rest => some ([], rest)
  | c :: rest => (cutDoubleColon? rest).map fun (before, after) => (c :: before, after)
  | [] => none

def groupsOf (text : List Char) : List (List Char) := if text.isEmpty then [] else splitChars ':' text

/-- Eight groups, or fewer around a double colon. -/
def isIpv6 (text : List Char) : Bool :=
  match cutDoubleColon? text with
  | none => groupCount? (groupsOf text) = some 8
  | some (before, after) =>
    (groupsOf before).all isHexGroup &&
      match groupCount? (groupsOf after) with
      | some count => (groupsOf before).length + count ≤ 7
      | none => false

/-- No blanks and no backslashes. -/
def isUriReference (text : List Char) : Bool := text.all fun c => c ≠ '\\' && !isBlank c

def isSchemeChar (c : Char) : Bool := c.isAlphanum || c = '+' || c = '-' || c = '.'

def isForbiddenInHost (c : Char) : Bool :=
  c.toNat ≤ 0x20 || c = '\x7f' ||
    ['#', '/', ':', '<', '>', '?', '@', '[', '\\', ']', '^', '|', '%', '\x60', '\x7b', '\x7d'].contains c

def isForbiddenInOpaqueHost (c : Char) : Bool :=
  ['\x00', '\t', '\n', '\r', ' ', '#', '/', '<', '>', '?', '@', '[', '\\', ']', '^', '|'].contains c

/-- A number as the last part of a host makes the whole host an address. -/
def isNumericHost (host : List Char) : Bool :=
  let labels := (splitChars '.' host).filter (!·.isEmpty)
  match labels.getLast? with
  | some last => last.all PatternReader.decimalDigit
  | none => false

def isHost (host : List Char) : Bool :=
  match host with
  | '[' :: rest => rest.getLast? = some ']' && isIpv6 rest.dropLast
  | host => !host.isEmpty && !host.any isForbiddenInHost && (!isNumericHost host || isDottedQuad host)

def isSocket (text : List Char) : Bool :=
  text.all PatternReader.decimalDigit && PatternReader.decimal text < 65536

/-- The host of an authority without user information, and the socket number after it. -/
def cutSocket (authority : List Char) : List Char × List Char :=
  match authority with
  | '[' :: _ =>
    let host := authority.takeWhile (· ≠ ']') ++ [']']
    (host, (authority.drop host.length).dropWhile (· = ':'))
  | _ => match cutLastChars? ':' authority with
    | some (host, socket) => (host, socket)
    | none => (authority, [])

def authorityOf (text : List Char) : List Char :=
  let authority := text.takeWhile fun c => !(['/', '\\', '?', '#'].contains c)
  match cutLastChars? '@' authority with
  | some (_, host) => host
  | none => authority

/-- An absolute address. The well-known schemes need a host. -/
def isUri (text : List Char) : Bool :=
  let scheme := text.takeWhile isSchemeChar
  match scheme, text.drop scheme.length with
  | first :: _, ':' :: rest =>
    let name := String.ofList (scheme.map Char.toLower)
    first.isAlpha &&
      (if ["http", "https", "ws", "wss", "ftp"].contains name then
        let (host, socket) := cutSocket (authorityOf (rest.dropWhile fun c => c = '/' || c = '\\'))
        isHost host && isSocket socket
      else if name = "file" then true
      else match rest with
      | '/' :: '/' :: rest =>
        let (host, socket) := cutSocket (authorityOf rest)
        (host.isEmpty && socket.isEmpty) || (!host.any isForbiddenInOpaqueHost && isSocket socket) || isHost host
      | _ => true)
  | _, _ => false

/-- Every tilde is followed by a zero or a one. -/
def areTildesPaired : List Char → Bool
  | '~' :: '0' :: rest => areTildesPaired rest
  | '~' :: '1' :: rest => areTildesPaired rest
  | '~' :: _ => false
  | _ :: rest => areTildesPaired rest
  | [] => true

def isJsonPointer (text : List Char) : Bool := (text.isEmpty || text.head? = some '/') && areTildesPaired text

/-- A number without leading zeros, and a number sign or a pointer. -/
def isRelativePointer (text : List Char) : Bool :=
  let number := text.takeWhile PatternReader.decimalDigit
  let rest := text.drop number.length
  !number.isEmpty && (number.length = 1 || number.head? ≠ some '0') && (rest = ['#'] || isJsonPointer rest)

/-- Expressions in braces among characters of a reference. -/
def uriTemplate : Option Pattern := Pattern.ofText? <|
  "^(?:(?:[^\\x00-\\x20\"'<>%\\\\^`\x7b|\x7d]|%[0-9a-f]\x7b2\x7d)|\\\x7b[+#./;?&=,!@|]?(?:[a-z0-9_]|%[0-9a-f]\x7b2\x7d)+" ++
  "(?::[1-9][0-9]\x7b0,3\x7d|\\*)?(?:,(?:[a-z0-9_]|%[0-9a-f]\x7b2\x7d)+(?::[1-9][0-9]\x7b0,3\x7d|\\*)?)*\\\x7d)*\\z"

def isUriTemplate (text : String) : Bool := uriTemplate.any (·.isFoundIn text)

/-- The test for a format. Other formats are not looked at. -/
def check? (format : String) : Option (String → Bool) :=
  match format with
  | "date" => some fun text => (date? text.toList).isSome
  | "date-time" => some fun text => isDateTime text.toList
  | "time" => some fun text => isTime text.toList
  | "email" | "idn-email" => some fun text => isEmail text.toList
  | "hostname" | "idn-hostname" => some fun text => isHostname text.toList
  | "ipv4" => some fun text => isIpv4 text.toList
  | "ipv6" => some fun text => isIpv6 text.toList
  | "uri" | "iri" => some fun text => isUri text.toList
  | "uri-reference" | "iri-reference" => some fun text => isUriReference text.toList
  | "uri-template" => some isUriTemplate
  | "json-pointer" => some fun text => isJsonPointer text.toList
  | "relative-json-pointer" => some fun text => isRelativePointer text.toList
  | "regex" => some fun text => (Pattern.ofText? text).isSome
  | _ => none

end ResourceKinds.Text.Format
