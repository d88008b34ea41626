import ResourceKinds.Json.Printer
import ResourceKinds.Json.Decoder
import ResourceKinds.Yaml.Printer

namespace ResourceKinds

inductive Encoding where
  | json | yaml
deriving DecidableEq

namespace Encoding

/-- The name of the format and the extension of its files. -/
def extension : Encoding → String
  | .json => "json"
  | .yaml => "yaml"

/-- The format with a name or an extension. -/
def ofName? : String → Option Encoding
  | "json" => some .json
  | "yaml" => some .yaml
  | "yml" => some .yaml
  | _ => none

def unknownMessage (name : String) : String := "unknown encoding " ++ name

def decoder : Json.Decoder Encoding :=
  Json.Decoder.choice ([.json, .yaml].map fun encoding => (encoding.extension, encoding))

/-- A whole document. -/
def render (encoding : Encoding) (document : Json) : String :=
  match encoding with
  | .json => document.pretty ++ "\n"
  | .yaml => Yaml.print document

end Encoding

end ResourceKinds
