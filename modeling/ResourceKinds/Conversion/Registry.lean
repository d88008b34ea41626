import ResourceKinds.Conversion.Converter
import ResourceKinds.Cache

namespace ResourceKinds

structure KindConversion where
  graph : VersionGraph
  /-- By version. -/
  codecs : Fields Codec
  converter : Converter

namespace KindConversion

/-- A version without a codec of its own is plain JSON. -/
def codec (entry : KindConversion) (version : String) : Codec := (entry.codecs.lookup version).getD .json

end KindConversion

/-- A call of a converter. -/
structure ConverterCall where
  direction : Direction
  source : RawObject
  target : TypeMeta
deriving DecidableEq

/-- How a conversion ended, and the calls of the converter on the way, in order. -/
structure Conversion where
  result : Except ConversionError Json
  calls : List ConverterCall

/-- The registered kinds by group and kind. -/
structure ConversionRegistry where
  kinds : List ((String × String) × KindConversion)

/-- Which kinds of a manifest were registered, and what kept the others from it. -/
structure RegistrationReport where
  registered : List String
  failed : List (String × Error)

namespace RegistrationReport

def isComplete (report : RegistrationReport) : Bool := report.failed.isEmpty

end RegistrationReport

namespace ConversionRegistry

def empty : ConversionRegistry := ⟨[]⟩

def find? (registry : ConversionRegistry) (group kind : String) : Option KindConversion :=
  Table.lookup registry.kinds (group, kind)

/-- Registers a kind in place of an earlier registration. -/
def register (registry : ConversionRegistry) (entry : KindConversion) : ConversionRegistry :=
  let key := (entry.graph.group, entry.graph.kind)
  ⟨(key, entry) :: Table.erase registry.kinds key⟩

def graph? (registry : ConversionRegistry) (group kind : String) : Option VersionGraph :=
  (registry.find? group kind).map KindConversion.graph

def hub? (registry : ConversionRegistry) (group kind : String) : Option String :=
  (registry.graph? group kind).map VersionGraph.hub

/-- A pruning codec for every version, or the first error. -/
def codecsFor (manifest : AppManifest) (kind : String) : List KindVersion → CacheM (Except Error (Fields Codec))
  | [] => return .ok []
  | version :: rest => do
    match ← ManifestCache.kindVersionSchema manifest kind version.name with
    | .error error => return .error error
    | .ok synthesized => match ← codecsFor manifest kind rest with
      | .error error => return .error error
      | .ok codecs => return .ok (codecs.insert version.name (.pruning synthesized.schema))

/-- The registration of one merged kind, or what keeps it from being registered. -/
def prepare (manifest : AppManifest) (preferred : Fields String) (converters : Fields Converter)
    (kind : KindDefinition) : CacheM (Except Error KindConversion) := do
  match ← liftM (kind.wireLogged (preferred.lookup kind.kind)) with
  | .error error => return .error (.versionGraph error)
  | .ok graph => match ← codecsFor manifest kind.kind kind.versions with
    | .error error => return .error error
    | .ok codecs => return .ok ⟨graph, codecs, (converters.lookup kind.kind).getD .restamp⟩

/-- Registers merged kinds one after the other, each whole or not at all. -/
def registerKinds (manifest : AppManifest) (preferred : Fields String) (converters : Fields Converter) :
    List KindDefinition → ConversionRegistry → CacheM (ConversionRegistry × RegistrationReport)
  | [], registry => return (registry, ⟨[], []⟩)
  | kind :: rest, registry => do
    match ← prepare manifest preferred converters kind with
    | .error error =>
      let (registry, report) ← registerKinds manifest preferred converters rest registry
      return (registry, { report with failed := (kind.kind, error) :: report.failed })
    | .ok entry =>
      let (registry, report) ← registerKinds manifest preferred converters rest (registry.register entry)
      return (registry, { report with registered := kind.kind :: report.registered })

/-- Wires and registers every kind of a manifest. -/
def registerManifest (registry : ConversionRegistry) (manifest : AppManifest) (preferred : Fields String)
    (converters : Fields Converter) : CacheM (ConversionRegistry × RegistrationReport) :=
  registerKinds manifest preferred converters (KindDefinition.mergeAll manifest.kinds) registry

/-- Takes an object of the given type along the hops that are left. -/
def travel (entry : KindConversion) : List Route → TypeMeta → Json → Conversion
  | [], _, object => ⟨.ok object, []⟩
  | route :: rest, type, object =>
    match (entry.codec route.source).encode object with
    | .error error => ⟨.error error, []⟩
    | .ok text =>
      let source : RawObject := ⟨type, text⟩
      let target := type.withVersion route.target
      let call : ConverterCall := ⟨route.direction, source, target⟩
      match (entry.converter.convert route.direction source target).bind (entry.codec route.target).decode with
      | .error error => ⟨.error error, [call]⟩
      | .ok object =>
        let later := travel entry rest target object
        ⟨later.result, call :: later.calls⟩

/-- Converts an object into another version of its own kind. -/
def convert (registry : ConversionRegistry) (object : Json) (version : String) : Conversion :=
  match TypeMeta.ofObject object with
  | .error error => ⟨.error error, []⟩
  | .ok type => match registry.find? type.group type.kind with
    | none => ⟨.error (.notRegistered type.group type.kind), []⟩
    | some entry =>
      if !entry.graph.contains type.version then ⟨.error (.unknownVersion type.kind type.version), []⟩
      else if !entry.graph.contains version then ⟨.error (.unknownVersion type.kind version), []⟩
      else match entry.graph.path? type.version version with
      | none => ⟨.error (.converter ("no route from " ++ type.version ++ " to " ++ version)), []⟩
      | some routes => travel entry routes type object

end ConversionRegistry

end ResourceKinds
