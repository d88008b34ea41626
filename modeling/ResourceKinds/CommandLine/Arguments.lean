import ResourceKinds.Encoding
import ResourceKinds.Text.Split

namespace ResourceKinds

inductive Command where
  | generate (input : String) (output : Option String) (encoding : Option Encoding) (selector : String)
  | versions (input : String)
  | schema (input kind version : String)
deriving DecidableEq

structure Invocation where
  settingsFile : Option String
  command : Command
deriving DecidableEq

/-- Why arguments are no invocation. -/
inductive Refusal where
  | misuse
  /-- The user asks for help. -/
  | help
deriving DecidableEq

/-- An option is written `-i VALUE`, `-iVALUE`, `-i=VALUE`, `--input VALUE` or `--input=VALUE`. -/
inductive Argument where
  | word
  | endOfOptions
  | option (isNamed : String → Char → Bool) (value : Option String)
  | help

namespace Argument

/-- A lone dash is a word. -/
def ofText (text : String) : Argument :=
  match text.toList with
  | ['-', '-'] => .endOfOptions
  | '-' :: '-' :: rest =>
    let (name, value) := Text.cutChars '=' rest
    let value := if rest.contains '=' then some (String.ofList value) else none
    if String.ofList name = "help" && value.isNone then .help
    else .option (fun long _ => long.toList = name) value
  | '-' :: 'h' :: _ => .help
  | '-' :: letter :: rest =>
    let value := match rest with
      | [] => none
      | '=' :: value => some (String.ofList value)
      | value => some (String.ofList value)
    .option (fun _ short => short = letter) value
  | _ => .word

def isWord (text : String) : Bool :=
  match ofText text with
  | .word => true
  | _ => false

end Argument

structure CommandOption where
  short : Char
  long : String
  accepts : String → Bool

namespace CommandOption

def text (short : Char) (long : String) : CommandOption := ⟨short, long, fun _ => true⟩

def path (short : Char) (long : String) : CommandOption := ⟨short, long, (· ≠ "")⟩

def settingsFile : CommandOption := text 'c' "config"

def input : CommandOption := path 'i' "input"

def encoding : CommandOption := ⟨'f', "format", fun name => (Encoding.ofName? name).isSome⟩

/-- Adds a value to those read so far, by the option's long name. -/
def store (known : List CommandOption) (isNamed : String → Char → Bool) (value : String) (values : Fields String) :
    Except Refusal (Fields String) :=
  match known.find? fun option => isNamed option.long option.short with
  | none => .error .misuse
  | some option =>
    if values.contains option.long || !option.accepts value then .error .misuse
    else .ok (values.insert option.long value)

/-- Reads options up to the first word, which is left with all that follows it. -/
def read (known : List CommandOption) (values : Fields String) :
    List String → Except Refusal (Fields String × List String)
  | [] => .ok (values, [])
  | argument :: rest => match Argument.ofText argument with
    | .word => .ok (values, argument :: rest)
    | .help => .error .help
    | .endOfOptions => if rest.isEmpty then .ok (values, []) else .error .misuse
    | .option isNamed (some value) => do read known (← store known isNamed value values) rest
    | .option isNamed none => match rest with
      | [] => .error .misuse
      | value :: rest =>
        if Argument.isWord value then do read known (← store known isNamed value values) rest
        else .error .misuse

/-- Reads options with nothing after them. -/
def readAll (known : List CommandOption) (arguments : List String) : Except Refusal (Fields String) := do
  match ← read known [] arguments with
  | (values, []) => return values
  | _ => .error .misuse

def required (values : Fields String) (name : String) : Except Refusal String :=
  match values.lookup name with
  | some value => .ok value
  | none => .error .misuse

end CommandOption

namespace Command

open CommandOption (input encoding text path settingsFile required)

/-- The options of a command, and how to read it from their values. -/
structure Form where
  options : List CommandOption
  command : Fields String → Except Refusal Command

def forms : List (String × Form) := [
  ("generate", {
    options := [input, path 'o' "output", encoding, text 's' "selector"]
    command := fun values => do
      return .generate (← required values "input") (values.lookup "output")
        ((values.lookup "format").bind Encoding.ofName?) ((values.lookup "selector").getD "*") }),
  ("versions", {
    options := [input]
    command := fun values => do return .versions (← required values "input") }),
  ("schema", {
    options := [input, text 'k' "kind", text 'V' "version"]
    command := fun values => do
      return .schema (← required values "input") (← required values "kind") (← required values "version") })]

end Command

/-- Reads all arguments. Of two settings files the one after the command counts. -/
def Invocation.ofArguments (arguments : List String) : Except Refusal Invocation := do
  match ← CommandOption.read [.settingsFile] [] arguments with
  | (_, []) => .error .misuse
  | (_, ["help"]) => .error .help
  | (_, ["help", name]) => .error (if name = "help" || Command.forms.any (·.1 = name) then .help else .misuse)
  | (outer, name :: rest) => match Table.lookup Command.forms name with
    | none => .error .misuse
    | some form => do
      let values ← CommandOption.readAll (.settingsFile :: form.options) rest
      return ⟨(values.lookup "config").or (outer.lookup "config"), ← form.command values⟩

end ResourceKinds
