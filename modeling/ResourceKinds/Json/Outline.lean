import ResourceKinds.Json.Token

namespace ResourceKinds.Json

/-- An item of a list. A complaint about it that names no place of its own is reported where the
reader stands once it has looked for what follows the item. -/
structure Item (α : Type) where
  value : α
  settles : Place

/-- A member of an object; `keySettles` is where a complaint about its name is reported. -/
structure Entry (α : Type) where
  key : String
  keySettles : Place
  value : α
  settles : Place

/-- A JSON text as far as it can be read. What follows the first fault is missing: the list, object or value in which it
lies ends there. -/
inductive Outline where
  | scalar (value : Json) (start stop : Place)
  /-- A scalar without quotes, from a format in which it is a text wherever a text is expected, and
  elsewhere what it reads as. -/
  | plain (text : String) (value : Json)
  | list (items : List (Item Outline)) (start : Place) (ending : Except Fault Place)
  | record (entries : List (Entry Outline)) (start : Place) (ending : Except Fault Place)
  | broken (fault : Fault)
deriving Inhabited

/-- The outline of a whole text, and what is wrong with the text after its value. -/
structure Sheet where
  outline : Outline
  trailing : Option Fault

/-- An open list or object, with what it holds so far, the latest first. -/
inductive Frame where
  | list (items : List (Item Outline)) (start : Place)
  | record (entries : List (Entry Outline)) (start : Place) (key : String) (keySettles : Place)

inductive Stage where
  | value
  | firstItem (start : Place)
  | nextItem
  | firstKey (start : Place)
  | nextKey (entries : List (Entry Outline)) (start : Place)
  | colon (entries : List (Entry Outline)) (start : Place) (key : String)
  | after (value : Outline) (stop : Place)

/-- Everything that is open ends with the fault. -/
def abandon (fault : Fault) : List Frame → Outline → Outline
  | [], value => value
  | .list items start :: outer, value =>
    abandon fault outer (.list (⟨value, fault.place⟩ :: items).reverse start (.error fault))
  | .record entries start key keySettles :: outer, value =>
    abandon fault outer (.record (⟨key, keySettles, value, fault.place⟩ :: entries).reverse start (.error fault))

private def brokenAt (fault : Fault) (frames : List Frame) : Sheet :=
  ⟨abandon fault frames (.broken fault), none⟩

/-- A fault between the items of the innermost list or between the members of the innermost object. -/
private def brokenList (fault : Fault) (items : List (Item Outline)) (start : Place) (outer : List Frame) : Sheet :=
  ⟨abandon fault outer (.list items.reverse start (.error fault)), none⟩

private def brokenRecord (fault : Fault) (entries : List (Entry Outline)) (start : Place) (outer : List Frame) : Sheet :=
  ⟨abandon fault outer (.record entries.reverse start (.error fault)), none⟩

private def endOfText (final : Place) (frames : List Frame) : Stage → Sheet
  | .value => brokenAt ⟨.eofValue, final⟩ frames
  | .firstItem start => brokenList ⟨.eofList, final⟩ [] start frames
  | .nextItem => match frames with
    | .list items start :: outer => brokenList ⟨.eofValue, final⟩ items start outer
    | _ => brokenAt ⟨.eofValue, final⟩ frames
  | .firstKey start => brokenRecord ⟨.eofObject, final⟩ [] start frames
  | .nextKey entries start => brokenRecord ⟨.eofValue, final⟩ entries start frames
  | .colon entries start key =>
    let fault := ⟨.eofObject, final⟩
    brokenAt fault (.record entries start key final :: frames)
  | .after value _ => match frames with
    | [] => ⟨value, none⟩
    | .list items start :: outer => brokenList ⟨.eofList, final⟩ (⟨value, final⟩ :: items) start outer
    | .record entries start key keySettles :: outer =>
      brokenRecord ⟨.eofObject, final⟩ (⟨key, keySettles, value, final⟩ :: entries) start outer

/-- The stage after a token that should begin a value. -/
private def beginValue (token : Token) : Except Fault Stage :=
  match token.mark with
  | .openList => .ok (.firstItem token.start)
  | .openObject => .ok (.firstKey token.start)
  | .text s => .ok (.after (.scalar (.string s) token.start token.stop) token.stop)
  | .scalar value => .ok (.after (.scalar value token.start token.stop) token.stop)
  | .fault _ fault => .error fault
  | .closeList | .closeObject | .comma | .colon | .stray => .error ⟨.expectedValue, token.start.peek⟩

/-- The stage after a token that should be the name of a member, given what a closing brace means. -/
private def beginKey (token : Token) (entries : List (Entry Outline)) (start : Place) : Except Fault Stage :=
  match token.mark with
  | .text key => .ok (.colon entries start key)
  | .fault true fault => .error fault
  | .closeObject => .error ⟨.trailingComma, token.start.peek⟩
  | _ => .error ⟨.keyMustBeString, token.start.peek⟩

/-- Reads the tokens that are left inside the open frames. -/
def assemble (final : Place) : List Token → List Frame → Stage → Sheet
  | [], frames, stage => endOfText final frames stage
  | token :: rest, frames, stage =>
    match stage with
    | .value => match beginValue token with
      | .ok stage => assemble final rest frames stage
      | .error fault => brokenAt fault frames
    | .firstItem start => match token.mark with
      | .closeList => assemble final rest frames (.after (.list [] start (.ok token.stop)) token.stop)
      | _ => match beginValue token with
        | .ok stage => assemble final rest (.list [] start :: frames) stage
        | .error fault => brokenAt fault (.list [] start :: frames)
    | .nextItem => match token.mark, frames with
      | .closeList, .list items start :: outer =>
        brokenList ⟨.trailingComma, token.start.peek⟩ items start outer
      | _, _ => match beginValue token with
        | .ok stage => assemble final rest frames stage
        | .error fault => brokenAt fault frames
    | .firstKey start => match token.mark with
      | .closeObject => assemble final rest frames (.after (.record [] start (.ok token.stop)) token.stop)
      | _ => match beginKey token [] start with
        | .ok stage => assemble final rest frames stage
        | .error fault => brokenRecord fault [] start frames
    | .nextKey entries start => match beginKey token entries start with
      | .ok stage => assemble final rest frames stage
      | .error fault => brokenRecord fault entries start frames
    | .colon entries start key => match token.mark with
      | .colon => assemble final rest (.record entries start key token.start :: frames) .value
      | mark =>
        let settles := match mark with
          | .closeObject => token.stop
          | _ => token.start
        brokenAt ⟨.expectedColon, token.start.peek⟩ (.record entries start key settles :: frames)
    | .after value _ => match frames with
      | [] => ⟨value, some ⟨.trailingCharacters, token.start.peek⟩⟩
      | .list items start :: outer => match token.mark with
        | .closeList =>
          let closed := .list (⟨value, token.stop⟩ :: items).reverse start (.ok token.stop)
          assemble final rest outer (.after closed token.stop)
        | .comma =>
          let settles := (rest.head?.map Token.start).getD final
          assemble final rest (.list (⟨value, settles⟩ :: items) start :: outer) .nextItem
        | _ => brokenList ⟨.expectedListCommaOrEnd, token.start.peek⟩ (⟨value, token.start⟩ :: items) start outer
      | .record entries start key keySettles :: outer => match token.mark with
        | .closeObject =>
          let entries := ⟨key, keySettles, value, token.stop⟩ :: entries
          assemble final rest outer (.after (.record entries.reverse start (.ok token.stop)) token.stop)
        | .comma => assemble final rest outer (.nextKey (⟨key, keySettles, value, token.start⟩ :: entries) start)
        | _ =>
          let entries := ⟨key, keySettles, value, token.start⟩ :: entries
          brokenRecord ⟨.expectedObjectCommaOrEnd, token.start.peek⟩ entries start outer

def outline (text : String) : Sheet :=
  let (tokens, final) := tokens text
  assemble final tokens [] .value

/-- Lists and objects may lie this deep in each other. -/
def depthLimit : Nat := 127

namespace Outline

mutual

/-- The value of an outline, or the first fault met on the way. A repeated member replaces the
earlier one. -/
def toJson (depth : Nat) : Outline → Except Fault Json
  | .scalar value _ _ => .ok value
  | .plain _ value => .ok value
  | .list items start ending =>
    match depth with
    | 0 => .error ⟨.recursionLimit, start.peek⟩
    | depth + 1 => do
      let items ← itemsToJson depth items
      let _ ← ending
      return .array items
  | .record entries start ending =>
    match depth with
    | 0 => .error ⟨.recursionLimit, start.peek⟩
    | depth + 1 => do
      let members ← entriesToJson depth entries
      let _ ← ending
      return .object (Table.ofList members)
  | .broken fault => .error fault

def itemsToJson (depth : Nat) : List (Item Outline) → Except Fault (List Json)
  | [] => .ok []
  | ⟨value, _⟩ :: rest => do
    let value ← value.toJson depth
    return value :: (← itemsToJson depth rest)

def entriesToJson (depth : Nat) : List (Entry Outline) → Except Fault (List (String × Json))
  | [] => .ok []
  | ⟨key, _, value, _⟩ :: rest => do
    let value ← value.toJson depth
    return (key, value) :: (← entriesToJson depth rest)

end

end Outline

/-- The value of a whole text. -/
def read (text : String) : Except Fault Json := do
  let sheet := outline text
  let value ← sheet.outline.toJson depthLimit
  match sheet.trailing with
  | some fault => .error fault
  | none => .ok value

/-- The complaint about a text, with its place. -/
def Fault.message (fault : Fault) : String :=
  fault.cause.message ++ " at line " ++ toString fault.place.line ++ " column " ++ toString fault.place.column

end ResourceKinds.Json
