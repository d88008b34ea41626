import ResourceKinds.Settings.Reader
import ResourceKinds.Toml.Reader
import ResourceKinds.Yaml.Reader

namespace ResourceKinds

/-- What a program finds around itself. -/
structure Surroundings where
  files : FileTree
  /-- The working directory. -/
  home : List String
  environment : Fields String

namespace Settings

private def readYaml? (text : String) : Option Json := do
  let node ← Yaml.read? text
  (node.outline.toJson Json.depthLimit).toOption

/-- The formats of settings files by their extensions. -/
def readers : List (String × (String → Option Json)) :=
  [("toml", fun text => (Toml.read? text).map .object), ("json", fun text => (Json.read text).toOption),
    ("yaml", readYaml?), ("yml", readYaml?)]

/-- A settings file: where it lies, and what it says. -/
structure SourceFile where
  path : FilePath
  read : String → Option Json
  text : String

/-- The file at a path, or else the one with an extension added to it. -/
def findFile (around : Surroundings) (path : String) : Except SettingsError SourceFile :=
  let textAt (path : String) : Option String := (around.files.readFile around.home (.ofString path)).toOption
  match textAt path with
  | some text =>
    let file := FilePath.ofString path
    match (file.extension?).bind (Table.lookup readers) with
    | some read => .ok ⟨file, read, text⟩
    | none => .error (.unknownFormat path)
  | none =>
    let found := readers.findSome? fun (extension, read) =>
      (textAt (path ++ "." ++ extension)).map fun text => ⟨.ofString (path ++ "." ++ extension), read, text⟩
    match found with
    | some file => .ok file
    | none => .error (.fileNotFound path)

/-- The layer of a file, whose values are said to be at its place as seen from the working
directory. -/
def SourceFile.layer (around : Surroundings) (file : SourceFile) : Except SettingsError (Fields Setting) :=
  let origin := "/".intercalate (FilePath.seenFrom around.home (file.path.placeFrom around.home))
  match file.read file.text with
  | some (.object members) => .ok (Setting.ofMembers (some origin) members)
  | _ => .error (.unreadable origin)

/-- The layer of a file that may be missing. -/
def optionalLayer (around : Surroundings) (path : String) : Except SettingsError (Fields Setting) :=
  match findFile around path with
  | .ok file => file.layer around
  | .error _ => .ok []

/-- The user's own settings file. -/
def userFile (environment : Fields String) : Option String :=
  let directory := match environment.lookup "XDG_CONFIG_HOME" with
    | some path => if path.toList.head? = some '/' then some path else none
    | none => none
  let directory := directory.or <| match environment.lookup "HOME" with
    | some "" => none
    | some path => some (FilePath.join path ".config")
    | none => none
  directory.map (FilePath.join · "kindgen/kindgen.toml")

/-- The files that are looked for unasked, in order. -/
def knownFiles (environment : Fields String) : List String :=
  ["kindgen.toml", ".kindgen.toml", "config/kindgen.toml"] ++ (userFile environment).toList

def variablePrefix : String := "kindgen__"

/-- An integer without blanks or separators. -/
private def integer? (text : List Char) : Option Int :=
  let (negative, digits) := DecimalText.splitSign text
  if !digits.isEmpty && digits.all DecimalText.isDigit then DecimalText.int64? negative (DecimalText.natural digits)
  else none

/-- What the text of a variable says: a truth value, a number or a text. -/
def variableValue (text : String) : Json :=
  let lower := Text.lowercase text
  if lower = "true" then .bool true
  else if lower = "false" then .bool false
  else match integer? text.toList, Double.ofTextOrWord? text.toList with
    | some n, _ => .number (.int n)
    | none, some d => .number (.double d)
    | none, none => .string text

/-- The layer of the variables with the right prefix. Two underscores part the names of a way. -/
def environmentLayer (environment : Fields String) : List (String × Setting) :=
  environment.filterMap fun (name, text) =>
    let name := Text.lowercase name
    if name.startsWith variablePrefix then
      let way := (name.drop variablePrefix.length).toString.replace "__" "."
      some (way, .scalar (variableValue text) (some "the environment"))
    else none

/-- The settings that hold around a program, with those of one more file if it is named. -/
def load (around : Surroundings) (named : Option String) : Except SettingsError Settings := do
  let known ← (knownFiles around.environment).mapM (optionalLayer around)
  let asked ← named.toList.mapM fun path => do (← findFile around path).layer around
  let layers := known ++ asked ++ [environmentLayer around.environment]
  ofSetting (layers.foldl Setting.overlay Setting.emptyTable)

end Settings

end ResourceKinds
