import ResourceKinds.Text.Quoted

namespace ResourceKinds

/-- A step on the way to a setting. -/
inductive SettingStep where
  | member (name : String)
  | item (index : Nat)
deriving DecidableEq

namespace SettingStep

/-- The way to a setting. A dot stands before every name that follows another name. -/
def wayText : List SettingStep → String
  | [] => ""
  | [.member name] => name
  | .member name :: .member next :: rest => name ++ "." ++ wayText (.member next :: rest)
  | .member name :: rest => name ++ wayText rest
  | .item index :: rest => "[" ++ toString index ++ "]" ++ wayText rest

end SettingStep

inductive SettingsError where
  | fileNotFound (path : String)
  | unknownFormat (path : String)
  | unreadable (path : String)
  /-- A value that is no text or no truth value, at a place in a file or in the environment. -/
  | wrongValue (found expected : String) (way : List SettingStep) (origin : Option String)
  /-- A value where a section or a list has to be. -/
  | wrongShape (found expected : String)
  | unknownChoice (type name : String)
  | notAChoice (type : String)
  | missingField (name : String)
  | tooShort (length : Nat) (expected : String)
deriving DecidableEq

namespace SettingsError

/-- The error as seen from the setting that the faulty one lies in. -/
def under (step : SettingStep) : SettingsError → SettingsError
  | .wrongValue found expected way origin => .wrongValue found expected (step :: way) origin
  | error => error

def message : SettingsError → String
  | .fileNotFound path => "configuration file \"" ++ path ++ "\" not found"
  | .unknownFormat path => "configuration file \"" ++ path ++ "\" is not of a registered file format"
  | .unreadable path => "cannot be read in " ++ path
  | .wrongValue found expected way origin =>
    "invalid type: " ++ found ++ ", expected " ++ expected ++
      (if way.isEmpty then "" else " for key `" ++ SettingStep.wayText way ++ "`") ++
      (match origin with
        | none => ""
        | some place => " in " ++ place)
  | .wrongShape found expected => "invalid type: " ++ found ++ ", expected " ++ expected
  | .unknownChoice type name => "enum " ++ type ++ " does not have variant constructor " ++ name
  | .notAChoice type =>
    "value of enum " ++ type ++ " should be represented by either string or table with exactly one key"
  | .missingField name => "missing field `" ++ name ++ "`"
  | .tooShort length expected => "invalid length " ++ toString length ++ ", expected " ++ expected

end SettingsError

end ResourceKinds
