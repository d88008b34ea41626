import ResourceKinds.Json.Basic
import ResourceKinds.Text.Lowercase
import ResourceKinds.Text.Split

namespace ResourceKinds

/-- Each value knows the place it was given at. -/
inductive Setting where
  | scalar (value : Json) (origin : Option String)
  | list (items : List Setting) (origin : Option String)
  | table (members : List (String × Setting)) (origin : Option String)
deriving Inhabited

namespace Setting

mutual

def ofJson (origin : Option String) : Json → Setting
  | .array items => .list (ofItems origin items) origin
  | .object members => .table (ofMembers origin members) origin
  | value => .scalar value origin

def ofItems (origin : Option String) : List Json → List Setting
  | [] => []
  | item :: rest => ofJson origin item :: ofItems origin rest

def ofMembers (origin : Option String) : List (String × Json) → Fields Setting
  | [] => []
  | (name, value) :: rest => (ofMembers origin rest).insert (Text.lowercase name) (ofJson origin value)

end

/-- A table without members, which no single place has given. -/
def emptyTable : Setting := .table [] none

/-- The members of a table; anything else gives way to an empty one. -/
def members : Setting → Fields Setting
  | .table members _ => members
  | _ => []

mutual

/-- Sets a member of a table. -/
def assign (target : Setting) (name : String) : Setting → Setting
  | .table incoming _ =>
    let name := Text.lowercase name
    let inner := (target.members.lookup name).getD emptyTable
    .table (target.members.insert name (inner.assignAll incoming)) none
  | value => .table (target.members.insert (Text.lowercase name) value) none

/-- Sets several members one after the other. Without any the target stays what it is. -/
def assignAll (target : Setting) : List (String × Setting) → Setting
  | [] => target
  | (name, value) :: rest => (target.assign name value).assignAll rest

end

/-- Sets a member of a table below other tables, which are made where they are missing. -/
def assignAt (target : Setting) : List String → String → Setting → Setting
  | [], name, value => target.assign name value
  | outer :: rest, name, value =>
    let inner := (target.members.lookup outer).getD emptyTable
    .table (target.members.insert outer (inner.assignAt rest name value)) none

/-- The parts of a name with dots, if each of them is a plain word. -/
def path? (name : String) : Option (List String) :=
  let parts := Text.split '.' name
  let isPlain (part : String) : Bool :=
    part ≠ "" && part.all fun c => c.isAlphanum || c = ' ' || c = '_' || c = '-'
  if parts.all isPlain then some parts else none

/-- Lays the members of a layer over a table: tables merge, and anything else replaces what was there. A name with dots stands for a place below. -/
def overlay (target : Setting) : List (String × Setting) → Setting
  | [] => target
  | (name, value) :: rest =>
    let assigned := match path? name with
      | some parts => target.assignAt parts.dropLast (parts.getLast?.getD "") value
      | none => target.assign name value
    assigned.overlay rest

end Setting

end ResourceKinds
