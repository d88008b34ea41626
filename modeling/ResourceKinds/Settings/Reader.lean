import ResourceKinds.Settings.Basic
import ResourceKinds.Settings.Error
import ResourceKinds.Settings.Layer
import ResourceKinds.Decimal.Layout

namespace ResourceKinds

abbrev SettingReader (α : Type) := Setting → Except SettingsError α

private def numberText (n : Number) : String :=
  match n with
  | .int n => toString n
  | .double d => d.plainText

namespace Setting

/-- The word for a value that has no text. -/
def shapeName : Setting → String
  | .scalar _ _ => "unit value"
  | .list _ _ => "sequence"
  | .table _ _ => "map"

def origin : Setting → Option String
  | .scalar _ origin => origin
  | .list _ origin => origin
  | .table _ origin => origin

/-- What a value is called where a section or a list has to be. -/
def describe : Setting → String
  | .scalar .null _ => "unit value"
  | .scalar (.number (.double d)) _ =>
    "floating point `" ++ (if d.isFinite then Layout.full.render d else d.plainText) ++ "`"
  | .scalar value _ => Json.describe value
  | .list _ _ => "sequence"
  | .table _ _ => "map"

end Setting

namespace SettingReader

def text : SettingReader String
  | .scalar (.string s) _ => .ok s
  | .scalar (.bool b) _ => .ok (if b then "true" else "false")
  | .scalar (.number n) _ => .ok (numberText n)
  | other => .error (.wrongValue other.shapeName "a string" [] other.origin)

private def isZero : Number → Bool
  | .int n => n = 0
  | .double d => d.isZero

/-- A truth value, a number, which is false when it is zero, or a word that says yes or no. -/
def flag : SettingReader Bool
  | .scalar (.bool b) _ => .ok b
  | .scalar (.number n) _ => .ok (!isZero n)
  | .scalar (.string s) origin =>
    let word := Text.lowercase s
    if ["1", "true", "on", "yes"].contains word then .ok true
    else if ["0", "false", "off", "no"].contains word then .ok false
    else .error (.wrongValue ("string " ++ Text.quoted word) "a boolean" [] origin)
  | other => .error (.wrongValue other.shapeName "a boolean" [] other.origin)

/-- One of several named values, by its name in any case. It may also be the name of the only
member of a table. -/
def choice (type : String) (values : List (String × α)) : SettingReader α := fun setting =>
  let pick (name : String) : Except SettingsError α :=
    match values.find? fun (known, _) => Text.lowercase known = Text.lowercase name with
    | some (_, value) => .ok value
    | none => .error (.unknownChoice type name)
  match setting with
  | .scalar (.string name) _ => pick name
  | .table [(name, _)] _ => pick name
  | _ => .error (.notAChoice type)

private def items (item : SettingReader α) (index : Nat) : List Setting → Except SettingsError (List α)
  | [] => .ok []
  | setting :: rest => do
    let value ← (item setting).mapError (·.under (.item index))
    return value :: (← items item (index + 1) rest)

def list (item : SettingReader α) : SettingReader (List α)
  | .list settings _ => items item 0 settings
  | other => .error (.wrongShape other.describe "a sequence")

end SettingReader

namespace Setting

/-- Only tables and lists are sections. -/
def checkSection (name : String) : Setting → Except SettingsError Unit
  | .scalar value origin => .error (.wrongShape (Setting.scalar value origin).describe ("struct " ++ name))
  | _ => .ok ()

/-- A field of a section, by its name in a table and by its position in a list. -/
def field? (setting : Setting) (position : Nat) (name : String) (reader : SettingReader α) :
    Except SettingsError (Option α) :=
  match setting with
  | .scalar _ _ => .ok none
  | .list settings _ => match settings[position]? with
    | none => .ok none
    | some value => ((reader value).map some).mapError (·.under (.item position))
  | .table members _ => match Table.lookup members name with
    | none => .ok none
    | some value => ((reader value).map some).mapError (·.under (.member name))

def fieldOr (setting : Setting) (position : Nat) (name : String) (default : α) (reader : SettingReader α) :
    Except SettingsError α := return (← setting.field? position name reader).getD default

end Setting

namespace Settings

open Setting (checkSection)
open SettingReader (text flag choice list)

def encoding : SettingReader Encoding :=
  choice "Encoding" ([.json, .yaml].map fun encoding => (encoding.extension, encoding))

def collision : SettingReader CollisionPolicy :=
  choice "CollisionPolicy" ([.error, .warn].map fun policy => (policy.name, policy))

def outputSection : SettingReader OutputSettings := fun setting => do
  checkSection "OutputConfig" setting
  let unset := default.output
  return {
    directory := ← setting.fieldOr 0 "dir" unset.directory text
    encoding := ← setting.fieldOr 1 "encoding" unset.encoding encoding
    folder := ← setting.fieldOr 2 "path_prefix" unset.folder text
    listChecksums := ← setting.fieldOr 3 "write_checksums" unset.listChecksums flag }

def manifestSection : SettingReader String := fun setting => do
  checkSection "ManifestConfig" setting
  setting.fieldOr 0 "api_version" default.manifestVersion text

def pipelineSection : SettingReader CollisionPolicy := fun setting => do
  checkSection "PipelineConfig" setting
  setting.fieldOr 0 "collision_policy" default.collisionPolicy collision

/-- Both fields have to be there. -/
def preferredEntry : SettingReader PreferredVersion := fun setting => do
  checkSection "PreferredVersion" setting
  let kind ← setting.field? 0 "kind" text
  let version ← setting.field? 1 "version" text
  let missing (position : Nat) (name : String) : Except SettingsError PreferredVersion :=
    match setting with
    | .list _ _ => .error (.tooShort position "struct PreferredVersion with 2 elements")
    | _ => .error (.missingField name)
  match kind, version with
  | some kind, some version => return ⟨kind, version⟩
  | none, _ => missing 0 "kind"
  | some _, none => missing 1 "version"

def conversionSection : SettingReader (List PreferredVersion) := fun setting => do
  checkSection "ConversionConfig" setting
  setting.fieldOr 0 "preferred" default.preferred (list preferredEntry)

/-- All sections, in a table or in a list. -/
def ofSetting : SettingReader Settings := fun setting =>
  return {
    output := ← setting.fieldOr 0 "output" default.output outputSection
    manifestVersion := ← setting.fieldOr 1 "manifest" default.manifestVersion manifestSection
    collisionPolicy := ← setting.fieldOr 2 "pipeline" default.collisionPolicy pipelineSection
    preferred := ← setting.fieldOr 3 "conversion" default.preferred conversionSection }

end Settings

end ResourceKinds
