import ResourceKinds.Json.Basic

namespace ResourceKinds.Json

/-- How many lines and, on the last of them, how many bytes have been read. -/
structure Place where
  line : Nat
  column : Nat
deriving DecidableEq, Inhabited

namespace Place

def start : Place := ⟨1, 0⟩

def after (place : Place) (c : Char) : Place :=
  if c = '\n' then ⟨place.line + 1, 0⟩ else ⟨place.line, place.column + c.utf8Size⟩

/-- One byte further: where an unread byte is reported. -/
def peek (place : Place) : Place := ⟨place.line, place.column + 1⟩

end Place

inductive Cause where
  | eofValue | eofList | eofObject | eofString
  | expectedValue | expectedIdent | expectedColon | expectedListCommaOrEnd | expectedObjectCommaOrEnd
  | trailingComma | trailingCharacters | keyMustBeString
  | invalidNumber | numberOutOfRange
  | invalidEscape | loneSurrogate | endOfHexEscape | controlCharacter
  | recursionLimit
deriving DecidableEq, Inhabited

def Cause.message : Cause → String
  | .eofValue => "EOF while parsing a value"
  | .eofList => "EOF while parsing a list"
  | .eofObject => "EOF while parsing an object"
  | .eofString => "EOF while parsing a string"
  | .expectedValue => "expected value"
  | .expectedIdent => "expected ident"
  | .expectedColon => "expected `:`"
  | .expectedListCommaOrEnd => "expected `,` or `]`"
  | .expectedObjectCommaOrEnd => "expected `,` or `\x7d`"
  | .trailingComma => "trailing comma"
  | .trailingCharacters => "trailing characters"
  | .keyMustBeString => "key must be a string"
  | .invalidNumber => "invalid number"
  | .numberOutOfRange => "number out of range"
  | .invalidEscape => "invalid escape"
  | .loneSurrogate => "lone leading surrogate in hex escape"
  | .endOfHexEscape => "unexpected end of hex escape"
  | .controlCharacter => "control character (\\u0000-\\u001F) found while parsing a string"
  | .recursionLimit => "recursion limit exceeded"

structure Fault where
  cause : Cause
  place : Place
deriving DecidableEq, Inhabited

inductive Mark where
  | openList | closeList | openObject | closeObject | comma | colon
  | text (s : String)
  | scalar (value : Json)
  | fault (inText : Bool) (fault : Fault)
  | stray

/-- Reading tokens never fails: a fault is the last token. -/
structure Token where
  mark : Mark
  start : Place
  stop : Place

/-- The unread characters and the place they begin at. -/
structure Cursor where
  rest : List Char
  place : Place

namespace Cursor

/-- What was read of a text, with the rest of it, which has at most `n` characters. -/
abbrev Scan (α : Type) (n : Nat) := Except Fault (α × { rest : Cursor // rest.rest.length ≤ n })

def isDigit (c : Char) : Bool := '0' ≤ c && c ≤ '9'

def digits : (rest : List Char) → (place : Place) → List Char × { rest' : Cursor // rest'.rest.length ≤ rest.length }
  | [], place => ([], ⟨⟨[], place⟩, Nat.le_refl _⟩)
  | c :: rest, place =>
    if isDigit c then
      let (more, ⟨after, shorter⟩) := digits rest (place.after c)
      (c :: more, ⟨after, Nat.le_succ_of_le shorter⟩)
    else ([], ⟨⟨c :: rest, place⟩, Nat.le_refl _⟩)

end Cursor

def hexValue? (c : Char) : Option Nat :=
  if '0' ≤ c && c ≤ '9' then some (c.toNat - 48)
  else if 'a' ≤ c && c ≤ 'f' then some (c.toNat - 87)
  else if 'A' ≤ c && c ≤ 'F' then some (c.toNat - 55)
  else none

def hexQuad? (a b c d : Char) : Option Nat := do
  let a ← hexValue? a
  let b ← hexValue? b
  let c ← hexValue? c
  let d ← hexValue? d
  return ((a * 16 + b) * 16 + c) * 16 + d

def simpleEscape? : Char → Option Char
  | '\"' => some '\"'
  | '\\' => some '\\'
  | '/' => some '/'
  | 'b' => some '\x08'
  | 'f' => some '\x0c'
  | 'n' => some '\n'
  | 'r' => some '\r'
  | 't' => some '\t'
  | _ => none

def Place.advance (place : Place) (text : List Char) : Place := text.foldl Place.after place

/-- The rest of a text after its opening quote. A character beyond U+FFFF is escaped as a pair of
surrogates; half of a pair is a fault. -/
def scanText : (rest : List Char) → Place → List Char → Cursor.Scan String rest.length
  | [], place, _ => .error ⟨.eofString, place⟩
  | '\"' :: rest, place, seen =>
    .ok (String.ofList seen.reverse, ⟨⟨rest, place.after '\"'⟩, by simp⟩)
  | '\\' :: 'u' :: a :: b :: c :: d :: rest, place, seen =>
    let after := place.advance ['\\', 'u', a, b, c, d]
    match hexQuad? a b c d with
    | none => .error ⟨.invalidEscape, after⟩
    | some unit =>
      if unit < 0xD800 || 0xDFFF < unit then
        (scanText rest after (Char.ofNat unit :: seen)).map fun (s, ⟨next, shorter⟩) =>
          (s, ⟨next, by simp only [List.length_cons]; omega⟩)
      else if 0xDC00 ≤ unit then .error ⟨.loneSurrogate, after⟩
      else match rest with
      | '\\' :: 'u' :: e :: f :: g :: h :: rest =>
        let second := after.advance ['\\', 'u', e, f, g, h]
        match hexQuad? e f g h with
        | none => .error ⟨.invalidEscape, second⟩
        | some low =>
          if low < 0xDC00 || 0xDFFF < low then .error ⟨.loneSurrogate, second⟩
          else
            let point := (unit - 0xD800) * 1024 + (low - 0xDC00) + 0x10000
            (scanText rest second (Char.ofNat point :: seen)).map fun (s, ⟨next, shorter⟩) =>
              (s, ⟨next, by simp only [List.length_cons]; omega⟩)
      | '\\' :: 'u' :: short => .error ⟨.eofString, (after.advance ['\\', 'u']).advance short⟩
      | ['\\'] => .error ⟨.eofString, after.advance ['\\']⟩
      | '\\' :: _ :: _ => .error ⟨.endOfHexEscape, (after.advance ['\\']).peek⟩
      | [] => .error ⟨.eofString, after⟩
      | _ :: _ => .error ⟨.endOfHexEscape, after.peek⟩
  | '\\' :: 'u' :: short, place, _ => .error ⟨.eofString, place.advance ('\\' :: 'u' :: short)⟩
  | ['\\'], place, _ => .error ⟨.eofString, place.after '\\'⟩
  | '\\' :: c :: rest, place, seen =>
    match simpleEscape? c with
    | none => .error ⟨.invalidEscape, (place.after '\\').peek⟩
    | some escaped =>
      (scanText rest ((place.after '\\').after c) (escaped :: seen)).map fun (s, ⟨next, shorter⟩) =>
        (s, ⟨next, by simp only [List.length_cons]; omega⟩)
  | c :: rest, place, seen =>
    if c.toNat < 32 then .error ⟨.controlCharacter, place.after c⟩
    else (scanText rest (place.after c) (c :: seen)).map fun (s, ⟨next, shorter⟩) =>
      (s, ⟨next, by simp only [List.length_cons]; omega⟩)

/-- A decimal of at most 64 bits and a power of ten, combined by one rounding of each operation. -/
def scaled? (significand : Nat) (exponent : Int) : Option Float :=
  let mantissa := significand.toUInt64.toFloat
  let tens (n : Nat) : Float := Float.ofScientific 1 false n
  if significand = 0 then some 0.0
  else if 0 ≤ exponent then
    if 308 < exponent then none
    else
      let value := mantissa * tens exponent.toNat
      if value.isInf then none else some value
  else if -308 ≤ exponent then some (mantissa / tens (-exponent).toNat)
  else if -616 ≤ exponent then some (mantissa / tens 308 / tens (-exponent - 308).toNat)
  else some 0.0

/-- Digits taken one by one while the number stays below `2 ^ 64`, and how many were left out. -/
def takeDigits : Nat → List Char → Nat × Nat
  | n, [] => (n, 0)
  | n, c :: rest =>
    let next := n * 10 + (c.toNat - 48)
    if next < UInt64.size then takeDigits next rest else (n, rest.length + 1)

/-- The value of a number's text: an integer when it has neither fraction nor exponent and fits
64 bits, and a double otherwise. Digits beyond the 64 bits only count towards the exponent. -/
def numberOf? (negative : Bool) (whole fraction : List Char) (exponent : Option Int) : Option Number :=
  let double (significand : Nat) (power : Int) : Option Number :=
    (scaled? significand power).map fun x =>
      .double (if negative then (Double.ofFloat x).neg else Double.ofFloat x)
  let (significand, dropped) := takeDigits 0 whole
  match fraction, exponent, dropped with
  | [], none, 0 =>
    if !negative then some (.int significand)
    else if significand = 0 || Int64.maxValue.toInt + 1 < significand then some (.double (Double.ofNat significand).neg)
    else some (.int (-(significand : Int)))
  | fraction, exponent, 0 =>
    let (significand, left) := takeDigits significand fraction
    double significand (exponent.getD 0 - (fraction.length - left : Nat))
  | fraction, exponent, dropped =>
    let (significand, left) := takeDigits significand fraction
    double significand (exponent.getD 0 + dropped - (fraction.length - left : Nat))

def naturalOf (digits : List Char) : Nat := digits.foldl (fun n c => n * 10 + (c.toNat - 48)) 0

/-- The fraction of a number: a point and at least one digit, or nothing. -/
def scanFraction : (rest : List Char) → Place → Cursor.Scan (List Char) rest.length
  | '.' :: rest, place =>
    let (fraction, ⟨next, shorter⟩) := Cursor.digits rest (place.after '.')
    if fraction.isEmpty then
      if next.rest.isEmpty then .error ⟨.eofValue, next.place⟩ else .error ⟨.invalidNumber, next.place.peek⟩
    else .ok (fraction, ⟨next, Nat.le_succ_of_le shorter⟩)
  | rest, place => .ok ([], ⟨⟨rest, place⟩, Nat.le_refl _⟩)

/-- The digits of an exponent, of which there is at least one. -/
def scanPower (negative : Bool) (rest : List Char) (place : Place) : Cursor.Scan (Option Int) rest.length :=
  let (power, ⟨next, shorter⟩) := Cursor.digits rest place
  if power.isEmpty then
    if next.rest.isEmpty then .error ⟨.eofValue, next.place⟩ else .error ⟨.invalidNumber, next.place.peek⟩
  else
    let size : Int := naturalOf power
    .ok (some (if negative then -size else size), ⟨next, shorter⟩)

/-- The exponent of a number, or nothing. -/
def scanExponent : (rest : List Char) → Place → Cursor.Scan (Option Int) rest.length
  | [], place => .ok (none, ⟨⟨[], place⟩, Nat.le_refl _⟩)
  | c :: rest, place =>
    if c = 'e' || c = 'E' then
      let signed : Cursor.Scan (Option Int) rest.length := match rest with
        | '+' :: rest => (scanPower false rest (place.advance [c, '+'])).map fun (power, ⟨next, shorter⟩) =>
            (power, ⟨next, Nat.le_succ_of_le shorter⟩)
        | '-' :: rest => (scanPower true rest (place.advance [c, '-'])).map fun (power, ⟨next, shorter⟩) =>
            (power, ⟨next, Nat.le_succ_of_le shorter⟩)
        | rest => scanPower false rest (place.after c)
      signed.map fun (power, ⟨next, shorter⟩) => (power, ⟨next, Nat.le_succ_of_le shorter⟩)
    else .ok (none, ⟨⟨c :: rest, place⟩, Nat.le_refl _⟩)

/-- A number after its sign and its first digits. -/
def scanNumber (negative : Bool) (leading rest : List Char) (place : Place) : Cursor.Scan Number rest.length := do
  let (more, ⟨afterWhole, wholeShorter⟩) := Cursor.digits rest place
  match leading ++ more with
  | [] =>
    if afterWhole.rest.isEmpty then .error ⟨.eofValue, place⟩ else .error ⟨.invalidNumber, place.peek⟩
  | '0' :: _ :: _ => .error ⟨.invalidNumber, if leading.isEmpty then (place.after '0').peek else place.peek⟩
  | whole =>
    let (fraction, ⟨afterFraction, fractionShorter⟩) ← scanFraction afterWhole.rest afterWhole.place
    let (exponent, ⟨next, exponentShorter⟩) ← scanExponent afterFraction.rest afterFraction.place
    match numberOf? negative whole fraction exponent with
    | none => .error ⟨.numberOutOfRange, next.place⟩
    | some value => .ok (value, ⟨next, by omega⟩)

/-- The rest of a word whose first letter has been read. -/
def scanWord (value : Json) : (word : List Char) → (rest : List Char) → Place → Cursor.Scan Json rest.length
  | [], rest, place => .ok (value, ⟨⟨rest, place⟩, Nat.le_refl _⟩)
  | _ :: _, [], place => .error ⟨.eofValue, place⟩
  | expected :: word, c :: rest, place =>
    if c = expected then
      (scanWord value word rest (place.after c)).map fun (v, ⟨next, shorter⟩) => (v, ⟨next, Nat.le_succ_of_le shorter⟩)
    else .error ⟨.expectedIdent, place.peek⟩

def isBlank (c : Char) : Bool := c = ' ' || c = '\n' || c = '\t' || c = '\r'

/-- The token that begins with `c`. -/
def scanMark (c : Char) (rest : List Char) (place : Place) : Cursor.Scan Mark rest.length :=
  let next := place.after c
  let alone (mark : Mark) : Cursor.Scan Mark rest.length := .ok (mark, ⟨⟨rest, next⟩, Nat.le_refl _⟩)
  match c with
  | '[' => alone .openList
  | ']' => alone .closeList
  | '\x7b' => alone .openObject
  | '\x7d' => alone .closeObject
  | ',' => alone .comma
  | ':' => alone .colon
  | '\"' => (scanText rest next []).map fun (s, after) => (.text s, after)
  | 'n' => (scanWord .null ['u', 'l', 'l'] rest next).map fun (v, after) => (.scalar v, after)
  | 't' => (scanWord (.bool true) ['r', 'u', 'e'] rest next).map fun (v, after) => (.scalar v, after)
  | 'f' => (scanWord (.bool false) ['a', 'l', 's', 'e'] rest next).map fun (v, after) => (.scalar v, after)
  | '-' => (scanNumber true [] rest next).map fun (n, after) => (.scalar (.number n), after)
  | c =>
    if Cursor.isDigit c then (scanNumber false [c] rest next).map fun (n, after) => (.scalar (.number n), after)
    else alone .stray

/-- The tokens of a text after those `seen`, up to its end or its first fault, and the place where
the text ends. -/
def tokensFrom (rest : List Char) (place : Place) (seen : List Token) : List Token × Place :=
  match rest with
  | [] => (seen.reverse, place)
  | c :: rest =>
    if isBlank c then tokensFrom rest (place.after c) seen
    else match scanMark c rest place with
    | .error fault => ((⟨.fault (c = '\"') fault, place, fault.place⟩ :: seen).reverse, fault.place)
    | .ok (mark, ⟨after, _⟩) =>
      tokensFrom after.rest after.place (⟨mark, place, after.place⟩ :: seen)
termination_by rest.length
decreasing_by
  · simp
  · simp only [List.length_cons]; omega

def tokens (text : String) : List Token × Place := tokensFrom text.toList .start []

end ResourceKinds.Json
