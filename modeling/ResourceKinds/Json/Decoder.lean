import ResourceKinds.Json.Outline
import ResourceKinds.Json.Printer
import ResourceKinds.Text.Quoted

namespace ResourceKinds.Json

inductive Reason where
  | unreadable (cause : Cause)
  | invalidType (found expected : String)
  | invalidValue (found expected : String)
  | invalidLength (length : Nat) (expected : String)
  | missingField (name : String)
  | duplicateField (name : String)
  | unknownVariant (name : String) (known : List String)
  | other (message : String)
deriving DecidableEq

private def listVariants (known : List String) : String :=
  match known.map fun name => "`" ++ name ++ "`" with
  | [] => "there are no variants"
  | [name] => "expected " ++ name
  | [first, second] => "expected " ++ first ++ " or " ++ second
  | names => "expected one of " ++ ", ".intercalate names

def Reason.message : Reason → String
  | .unreadable cause => cause.message
  | .invalidType found expected => "invalid type: " ++ found ++ ", expected " ++ expected
  | .invalidValue found expected => "invalid value: " ++ found ++ ", expected " ++ expected
  | .invalidLength length expected => "invalid length " ++ toString length ++ ", expected " ++ expected
  | .missingField name => "missing field `" ++ name ++ "`"
  | .duplicateField name => "duplicate field `" ++ name ++ "`"
  | .unknownVariant name known => "unknown variant `" ++ name ++ "`, " ++ listVariants known
  | .other message => message

/-- Why a document was refused, and where, once that is known. -/
structure Complaint where
  reason : Reason
  place : Option Place
deriving DecidableEq

def Complaint.message (complaint : Complaint) : String :=
  match complaint.place with
  | none => complaint.reason.message
  | some place =>
    complaint.reason.message ++ " at line " ++ toString place.line ++ " column " ++ toString place.column

/-- A complaint without a place gets this one. -/
def Complaint.settle (place : Option Place) (complaint : Complaint) : Complaint :=
  ⟨complaint.reason, complaint.place.or place⟩

/-- Whether a document was written as text, so that complaints have places, and how much deeper
lists and objects may still lie. -/
structure Context where
  written : Bool
  depth : Nat

namespace Context

def place? (context : Context) (place : Place) : Option Place := if context.written then some place else none

/-- The context inside a list or object that starts at `start`. -/
def enter (context : Context) (start : Place) : Except Complaint Context :=
  match context.written, context.depth with
  | true, 0 => .error ⟨.unreadable .recursionLimit, some start.peek⟩
  | written, depth => .ok ⟨written, depth - 1⟩

end Context

abbrev Decoder (α : Type) := Context → Outline → Except Complaint α

private def faultComplaint (fault : Fault) : Complaint := ⟨.unreadable fault.cause, some fault.place⟩

/-- How a value is called in a complaint. -/
def describe : Json → String
  | .null => "null"
  | .bool b => "boolean `" ++ (if b then "true" else "false") ++ "`"
  | .number (.int n) => "integer `" ++ toString n ++ "`"
  | .number (.double d) => "floating point `" ++ doubleLayout.render d ++ "`"
  | .string s => "string " ++ Text.quoted s
  | .array _ => "sequence"
  | .object _ => "map"

namespace Outline

def start : Outline → Place
  | .scalar _ start _ => start
  | .plain _ _ => .start
  | .list _ start _ => start
  | .record _ start _ => start
  | .broken fault => fault.place

/-- The complaint about a value of the wrong type. -/
def wrongType (context : Context) (expected : String) : Outline → Complaint
  | .scalar value _ stop => ⟨.invalidType (describe value) expected, context.place? stop⟩
  | .plain _ value => ⟨.invalidType (describe value) expected, none⟩
  | .list _ start _ => ⟨.invalidType "sequence" expected, context.place? start⟩
  | .record _ start _ => ⟨.invalidType "map" expected, context.place? start⟩
  | .broken fault => faultComplaint fault

/-- A record without entries in the place of nothing at all. -/
def orEmptyRecord : Outline → Outline
  | .plain "" _ => .record [] .start (.ok .start)
  | outline => outline

mutual

/-- The first fault of a value that is skipped. -/
def firstFault? : Outline → Option Fault
  | .scalar _ _ _ => none
  | .plain _ _ => none
  | .list items _ ending => (itemsFault? items).or (match ending with
    | .error fault => some fault
    | .ok _ => none)
  | .record entries _ ending => (entriesFault? entries).or (match ending with
    | .error fault => some fault
    | .ok _ => none)
  | .broken fault => some fault

def itemsFault? : List (Item Outline) → Option Fault
  | [] => none
  | ⟨value, _⟩ :: rest => (firstFault? value).or (itemsFault? rest)

def entriesFault? : List (Entry Outline) → Option Fault
  | [] => none
  | ⟨_, _, value, _⟩ :: rest => (firstFault? value).or (entriesFault? rest)

end

mutual

/-- The outline of a value that was never written. -/
def ofJson : Json → Outline
  | .array items => .list (ofItems items) .start (.ok .start)
  | .object members => .record (ofMembers members) .start (.ok .start)
  | value => .scalar value .start .start

def ofItems : List Json → List (Item Outline)
  | [] => []
  | value :: rest => ⟨ofJson value, .start⟩ :: ofItems rest

def ofMembers : List (String × Json) → List (Entry Outline)
  | [] => []
  | (key, value) :: rest => ⟨key, .start, ofJson value, .start⟩ :: ofMembers rest

end

end Outline

namespace Decoder

def scalar (expected : String) (pick : Json → Option α) : Decoder α := fun context outline =>
  match outline with
  | .scalar value _ _ | .plain _ value => match pick value with
    | some a => .ok a
    | none => .error (outline.wrongType context expected)
  | outline => .error (outline.wrongType context expected)

def text : Decoder String := fun context outline =>
  match outline with
  | .plain text _ => .ok text
  | outline => scalar "a string" asString? context outline

def flag : Decoder Bool := scalar "a boolean" asBool?

/-- An integer in a range with the given name. -/
def integer (name : String) (low high : Int) : Decoder Int := fun context outline =>
  match outline with
  | .scalar (.number (.int n)) _ stop =>
    if low ≤ n && n ≤ high then .ok n
    else .error ⟨.invalidValue ("integer `" ++ toString n ++ "`") name, context.place? stop⟩
  | .plain _ (.number (.int n)) =>
    if low ≤ n && n ≤ high then .ok n
    else .error ⟨.invalidValue ("integer `" ++ toString n ++ "`") name, none⟩
  | outline => .error (outline.wrongType context name)

def int32 : Decoder Int := integer "i32" Int32.minValue.toInt Int32.maxValue.toInt

def int64 : Decoder Int := integer "i64" Int64.minValue.toInt Int64.maxValue.toInt

/-- A number as a double. -/
def double : Decoder Double := scalar "f64" fun
  | .number (.int n) => some (if n < 0 then (Double.ofNat n.natAbs).neg else Double.ofNat n.natAbs)
  | .number (.double d) => some d
  | _ => none

/-- `null` stands for a value that is not given. -/
def option (item : Decoder α) : Decoder (Option α) := fun context outline =>
  match outline with
  | .scalar .null _ _ | .plain _ .null => .ok none
  | outline => (item context outline).map some

private def items (item : Decoder α) (context : Context) : List (Item Outline) → Except Complaint (List α)
  | [] => .ok []
  | ⟨outline, settles⟩ :: rest => do
    let value ← (item context outline).mapError (·.settle (context.place? settles))
    return value :: (← items item context rest)

def list (item : Decoder α) : Decoder (List α) := fun context outline =>
  match outline with
  | .list entries start ending => do
    let values ← items item (← context.enter start) entries
    let _ ← ending.mapError faultComplaint
    return values
  | .plain "" _ => .ok []
  | outline => .error (outline.wrongType context "a sequence")

private def members (item : Decoder α) (context : Context) :
    List (Entry Outline) → Except Complaint (List (String × α))
  | [] => .ok []
  | ⟨key, _, outline, settles⟩ :: rest => do
    let value ← (item context outline).mapError (·.settle (context.place? settles))
    return (key, value) :: (← members item context rest)

/-- An object with any names. -/
def map (item : Decoder α) : Decoder (Fields α) := fun context outline =>
  match outline with
  | .record entries start ending => do
    let values ← members item (← context.enter start) entries
    let _ ← ending.mapError faultComplaint
    return Table.ofList values
  | .plain "" _ => .ok []
  | outline => .error (outline.wrongType context "a map")

def any : Decoder Json := fun context outline =>
  (outline.toJson context.depth).mapError faultComplaint

/-- One of several named values. It may also be written as an object with that name for `null`. -/
def choice (values : List (String × α)) : Decoder α := fun context outline =>
  let pick (name : String) (place : Place) : Except Complaint α :=
    match Table.lookup values name with
    | some a => .ok a
    | none => .error ⟨.unknownVariant name (Table.keys values), context.place? place⟩
  let unexpected (place : Place) : Complaint := ⟨.unreadable .expectedValue, some place⟩
  match outline with
  | .scalar (.string name) _ stop => pick name stop
  | .plain name _ => pick name .start
  | .record entries start ending => do
    let context ← context.enter start
    match entries with
    | [⟨name, keySettles, outline, _⟩] =>
      let value ← pick name keySettles
      match outline with
      | .scalar .null _ _ | .plain _ .null => do
        let _ ← ending.mapError faultComplaint
        return value
      | outline => .error (outline.wrongType context "unit")
    | [] => match context.written, ending with
      | true, .ok stop => .error (unexpected stop)
      | true, .error fault => .error (faultComplaint fault)
      | false, _ => .error ⟨.invalidValue "map" "map with a single key", none⟩
    | ⟨name, keySettles, outline, settles⟩ :: _ =>
      if context.written then do
        let _ ← pick name keySettles
        match outline with
        | .scalar .null _ _ => .error (unexpected settles)
        | outline => .error (outline.wrongType context "unit")
      else .error ⟨.invalidValue "map" "map with a single key", none⟩
  | .broken fault => .error (faultComplaint fault)
  | outline =>
    if context.written then .error (unexpected outline.start.peek)
    else .error (outline.wrongType context "string or map")

end Decoder

/-- What the fields of a record are read from. -/
inductive RecordSource where
  | members (entries : List (Entry Outline)) (stop : Place)
  | sequence (items : List (Item Outline)) (stop : Place) (expected : String)

/-- A result, or the complaint with its rank in the order of the document. -/
abbrev Ranked (α : Type) := Except (Nat × Complaint) α

/-- Both results, or the complaint of lower rank. -/
def Ranked.both (first : Ranked α) (second : Ranked β) : Ranked (α × β) :=
  match first, second with
  | .ok a, .ok b => .ok (a, b)
  | .error e, .ok _ => .error e
  | .ok _, .error e => .error e
  | .error e, .error f => .error (if f.1 < e.1 then f else e)

/-- The fields of a record: their names in order, and how to read those of them that begin at a
given position. -/
structure RecordReader (α : Type) where
  names : List String
  read : Context → RecordSource → Nat → Ranked α

namespace RecordReader

instance : Functor RecordReader where
  map f reader := ⟨reader.names, fun context source first => (reader.read context source first).map f⟩

instance : Pure RecordReader where
  pure a := ⟨[], fun _ _ _ => .ok a⟩

instance : Seq RecordReader where
  seq f rest :=
    let rest := rest ()
    ⟨f.names ++ rest.names, fun context source first =>
      (Ranked.both (f.read context source first) (rest.read context source (first + f.names.length))).map
        fun (f, a) => f a⟩

/-- The index and the entry of the first member with this name. -/
def findEntry? (name : String) : List (Entry Outline) → Nat → Option (Nat × Entry Outline)
  | [], _ => none
  | entry :: rest, index => if entry.key = name then some (index, entry) else findEntry? name rest (index + 1)

/-- One field. Where it is missing, it has the default, or it is an error if there is none. -/
def field (name : String) (default : Option α) (decoder : Decoder α) : RecordReader α where
  names := [name]
  read context source position :=
    match source with
    | .members entries stop => match findEntry? name entries 0 with
      | some (index, entry) =>
        (decoder context entry.value).mapError fun e => (index, e.settle (context.place? entry.settles))
      | none => match default with
        | some a => .ok a
        | none => .error (entries.length + 1 + position, ⟨.missingField name, context.place? stop⟩)
    | .sequence items stop expected => match items[position]? with
      | some ⟨outline, settles⟩ =>
        (decoder context outline).mapError fun e => (position, e.settle (context.place? settles))
      | none => match default with
        | some a => .ok a
        | none => .error (position, ⟨.invalidLength position expected, context.place? stop⟩)

def required (name : String) (decoder : Decoder α) : RecordReader α := field name none decoder

def withDefault (name : String) (default : α) (decoder : Decoder α) : RecordReader α :=
  field name (some default) decoder

def optional (name : String) (decoder : Decoder α) : RecordReader (Option α) :=
  withDefault name none decoder.option

/-- Complaints about members apart from the values of known fields: a known name that is
repeated, or a fault in a value that is skipped. -/
def strayComplaint? (names : List String) (context : Context) :
    List (Entry Outline) → List String → Nat → Option (Nat × Complaint)
  | [], _, _ => none
  | entry :: rest, seen, index =>
    if seen.contains entry.key then
      some (index, ⟨.duplicateField entry.key, context.place? entry.keySettles⟩)
    else if names.contains entry.key then strayComplaint? names context rest (entry.key :: seen) (index + 1)
    else match entry.value.firstFault? with
    | some fault => some (index, faultComplaint fault)
    | none => strayComplaint? names context rest seen (index + 1)

private def check (complaint : Option (Nat × Complaint)) : Ranked Unit :=
  match complaint with
  | none => .ok ()
  | some e => .error e

/-- After the last field only the closing bracket may follow. -/
private def sequenceEnd (context : Context) (names : List String) (items : List (Item Outline))
    (ending : Except Fault Place) : Option (Nat × Complaint) :=
  let count := names.length
  match items[count]? with
  | some item =>
    if context.written then some (count, ⟨.unreadable .trailingCharacters, some item.value.start.peek⟩)
    else some (count, ⟨.invalidLength items.length "fewer elements in array", none⟩)
  | none => match ending with
    | .ok _ => none
    | .error fault =>
      let cause := if items.length < count then fault.cause else match fault.cause with
        | .expectedListCommaOrEnd => .trailingCharacters
        | .eofValue => .trailingCharacters
        | cause => cause
      some (items.length, ⟨.unreadable cause, some fault.place⟩)

private def stopOf (ending : Except Fault Place) : Place :=
  match ending with
  | .ok stop => stop
  | .error fault => fault.place

/-- The record with this name and these fields, from an object, whose unknown members are skipped, or from an array of
its fields in order. The first complaint in the order of the document counts; missing fields come after all that is
there. -/
def decoder (name : String) (reader : RecordReader α) : Decoder α := fun context outline =>
  let result (ranked : Ranked (α × Unit)) : Except Complaint α :=
    (ranked.map Prod.fst).mapError Prod.snd
  match outline.orEmptyRecord with
  | .record entries start ending => do
    let context ← context.enter start
    let stray := strayComplaint? reader.names context entries [] 0
    let final := match ending with
      | .ok _ => none
      | .error fault => some (entries.length, faultComplaint fault)
    let others := (Ranked.both (check stray) (check final)).map fun _ => ()
    result (Ranked.both (reader.read context (.members entries (stopOf ending)) 0) others)
  | .list items start ending => do
    let context ← context.enter start
    let count := reader.names.length
    let expected := "struct " ++ name ++ " with " ++ toString count ++ (if count = 1 then " element" else " elements")
    result (Ranked.both (check (sequenceEnd context reader.names items ending))
      (reader.read context (.sequence items (stopOf ending) expected) 0) |>.map Prod.swap)
  | outline => .error (outline.wrongType context ("struct " ++ name))

end RecordReader

/-- Decodes a value. -/
def decode (decoder : Decoder α) (value : Json) : Except Complaint α := decoder ⟨false, value.height⟩ (.ofJson value)

/-- Decodes a whole text. -/
def decodeText (decoder : Decoder α) (text : String) : Except Complaint α := do
  let sheet := outline text
  let value ← decoder ⟨true, depthLimit⟩ sheet.outline
  match sheet.trailing with
  | some fault => .error (faultComplaint fault)
  | none => .ok value

end ResourceKinds.Json
