import ResourceKinds.Schema.Pruning
import ResourceKinds.Json.Outline
import ResourceKinds.Error

namespace ResourceKinds

/-- The type members of an object. -/
structure TypeMeta where
  group : String
  version : String
  kind : String
deriving DecidableEq

namespace TypeMeta

/-- The group and version as written in an object; without a group, the version alone. -/
def apiVersion (type : TypeMeta) : String :=
  if type.group = "" then type.version else type.group ++ "/" ++ type.version

def withVersion (type : TypeMeta) (version : String) : TypeMeta := ⟨type.group, version, type.kind⟩

/-- The version follows the last slash. -/
def ofObject (object : Json) : Except ConversionError TypeMeta :=
  match (object.get? "apiVersion").bind Json.asString? with
  | none => .error (.missingTypeMember "apiVersion")
  | some apiVersion => match (object.get? "kind").bind Json.asString? with
    | none => .error (.missingTypeMember "kind")
    | some kind => match Text.cutLast? '/' apiVersion with
      | some (group, version) => .ok ⟨group, version, kind⟩
      | none => .ok ⟨"", apiVersion, kind⟩

end TypeMeta

structure Codec where
  encode : Json → Except ConversionError String
  decode : String → Except ConversionError Json

namespace Codec

def json : Codec where
  encode object := .ok object.compact
  decode text := (Json.read text).mapError fun fault => .codec fault.message

/-- Drops the fields that the schema does not declare when an object is decoded. -/
def pruning (schema : StructuralSchema) : Codec where
  encode := json.encode
  decode text := (json.decode text).map schema.prune

end Codec

/-- An encoded object on its way between two versions. -/
structure RawObject where
  type : TypeMeta
  /-- The encoding. It may be any bytes, but what is no text is written by no codec, and none reads it. -/
  text : String
deriving DecidableEq

inductive Converter where
  /-- Writes the type members of the destination and touches nothing else. -/
  | restamp
  | custom (toHub fromHub : RawObject → TypeMeta → Except ConversionError String)

namespace Converter

def restampObject (type : TypeMeta) (members : Fields Json) : Json :=
  .object ((members.insert "apiVersion" (.string type.apiVersion)).insert "kind" (.string type.kind))

def restampText (source : RawObject) (target : TypeMeta) : Except ConversionError String := do
  match ← Codec.json.decode source.text with
  | .object members => Codec.json.encode (restampObject target members)
  | _ => .error (.converter (source.type.apiVersion ++ " " ++ source.type.kind ++ " is not an object"))

def isCustom : Converter → Bool
  | .restamp => false
  | .custom _ _ => true

/-- Converts from a version to the hub or from the hub to a version. -/
def convert (converter : Converter) (direction : Direction) (source : RawObject) (target : TypeMeta) :
    Except ConversionError String :=
  match converter, direction with
  | .restamp, _ => restampText source target
  | .custom toHub _, .toHub => toHub source target
  | .custom _ fromHub, .fromHub => fromHub source target

end Converter

/-- What a converter does in one direction, written down. -/
inductive ConversionStep where
  | restamp
  | fail (reason : String)
  | answer (text : String)
  /-- Moves a field of the specification and writes the type members of the destination. -/
  | rename (field newName : String)
deriving DecidableEq

namespace ConversionStep

/-- An object with a field of its specification moved, if it has one of that name. -/
def moveField (field newName : String) : Json → Json
  | .object members => match Table.lookup members "spec" with
    | some (.object spec) => match Table.lookup spec field with
      | some value =>
        .object (Table.insert members "spec" (.object (Table.insert (Table.erase spec field) newName value)))
      | none => .object members
    | _ => .object members
  | value => value

def run (step : ConversionStep) (source : RawObject) (target : TypeMeta) : Except ConversionError String :=
  match step with
  | .restamp => Converter.restampText source target
  | .fail reason => .error (.converter reason)
  | .answer text => .ok text
  | .rename field newName => do
    let object ← Codec.json.decode source.text
    let text ← Codec.json.encode (moveField field newName object)
    Converter.restampText ⟨source.type, text⟩ target

/-- The converter that takes these steps. -/
def converter (toHub fromHub : ConversionStep) : Converter := .custom toHub.run fromHub.run

end ConversionStep

end ResourceKinds
