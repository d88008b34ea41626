import ResourceKinds.Kind.Basic
import ResourceKinds.Json.Decoder

namespace ResourceKinds

open Json (Decoder RecordReader)
open Json.RecordReader (required withDefault optional)

private def optionalText (name : String) (text : Option String) : List (String × Json) :=
  match text with
  | none => []
  | some s => [(name, .string s)]

namespace Scope

def decoder : Decoder Scope := Decoder.choice ([.cluster, .namespaced].map fun scope => (scope.name, scope))

end Scope

namespace SchemaTree

/-- A tree that cannot be read is reported by its flaw alone. -/
def decoder : Decoder SchemaTree := fun context outline => do
  let document ← Decoder.any context outline
  (SchemaTree.read document).mapError fun e => ⟨.other e.message, none⟩

end SchemaTree

namespace PrinterColumn

def decoder : Decoder PrinterColumn := RecordReader.decoder "PrinterColumn" <|
  PrinterColumn.mk <$> required "name" Decoder.text <*> required "jsonPath" Decoder.text
    <*> required "type" Decoder.text <*> optional "description" Decoder.text
    <*> optional "format" Decoder.text <*> optional "priority" Decoder.int32

def toJson (column : PrinterColumn) : Json :=
  .object <| optionalText "description" column.description ++ optionalText "format" column.format ++
    [("jsonPath", .string column.jsonPath), ("name", .string column.name)] ++
    (match column.priority with
      | none => []
      | some n => [("priority", .number (.int n))]) ++
    [("type", .string column.type)]

end PrinterColumn

namespace CodegenFlags

def all : CodegenFlags := ⟨true, true⟩

def decoder : Decoder CodegenFlags := RecordReader.decoder "CodegenFlags" <|
  CodegenFlags.mk <$> withDefault "backend" true Decoder.flag <*> withDefault "frontend" true Decoder.flag

def toJson (flags : CodegenFlags) : Json :=
  .object [("backend", .bool flags.backend), ("frontend", .bool flags.frontend)]

end CodegenFlags

namespace AdmissionOperation

def decoder : Decoder AdmissionOperation :=
  Decoder.choice ([.create, .update, .delete, .connect, .all].map fun operation => (operation.name, operation))

end AdmissionOperation

namespace AdmissionHook

def decoder : Decoder AdmissionHook := RecordReader.decoder "AdmissionCapability" <|
  AdmissionHook.mk <$> withDefault "operations" [] (Decoder.list AdmissionOperation.decoder)

def toJson (hook : AdmissionHook) : Json :=
  .object [("operations", Json.strings (hook.operations.map AdmissionOperation.name))]

end AdmissionHook

namespace Admission

def decoder : Decoder Admission := RecordReader.decoder "AdmissionCapabilities" <|
  Admission.mk <$> optional "validation" AdmissionHook.decoder <*> optional "mutation" AdmissionHook.decoder

/-- Validation stands before mutation. -/
def toJson (admission : Admission) : Json :=
  let hook (name : String) (hook : Option AdmissionHook) : List (String × Json) :=
    match hook with
    | .none => []
    | some hook => [(name, hook.toJson)]
  .object (hook "validation" admission.validation ++ hook "mutation" admission.mutation)

end Admission

namespace KindVersion

def decoder : Decoder KindVersion := RecordReader.decoder "KindVersion" <|
  KindVersion.mk <$> required "name" Decoder.text <*> withDefault "schema" SchemaTree.empty SchemaTree.decoder
    <*> withDefault "selectableFields" [] (Decoder.list Decoder.text)
    <*> withDefault "printerColumns" [] (Decoder.list PrinterColumn.decoder)
    <*> withDefault "codegen" CodegenFlags.all CodegenFlags.decoder
    <*> withDefault "admission" Admission.none Admission.decoder
    <*> withDefault "conversion" false Decoder.flag <*> withDefault "served" true Decoder.flag

def toJson (version : KindVersion) : Json :=
  .object [("name", .string version.name), ("schema", version.schema.toJson),
    ("selectableFields", Json.strings version.selectableFields),
    ("printerColumns", .array (version.printerColumns.map PrinterColumn.toJson)),
    ("codegen", version.codegen.toJson), ("admission", version.admission.toJson),
    ("conversion", .bool version.conversion), ("served", .bool version.served)]

end KindVersion

namespace KindDefinition

def decoder : Decoder KindDefinition := RecordReader.decoder "KindDefinition" <|
  KindDefinition.mk <$> required "group" Decoder.text <*> required "kind" Decoder.text
    <*> withDefault "scope" Scope.namespaced Scope.decoder <*> withDefault "machineName" "" Decoder.text
    <*> withDefault "plural" "" Decoder.text <*> required "versions" (Decoder.list KindVersion.decoder)
    <*> optional "preferredVersion" Decoder.text

def toJson (definition : KindDefinition) : Json :=
  .object <| [("group", .string definition.group), ("kind", .string definition.kind),
    ("scope", .string definition.scope.name), ("machineName", .string definition.machineName),
    ("plural", .string definition.plural), ("versions", .array (definition.versions.map KindVersion.toJson))] ++
    optionalText "preferredVersion" definition.preferredVersion

end KindDefinition

namespace AppManifest

def decoder : Decoder AppManifest := RecordReader.decoder "AppManifest" <|
  AppManifest.mk <$> required "appName" Decoder.text <*> withDefault "group" "" Decoder.text
    <*> withDefault "kinds" [] (Decoder.list KindDefinition.decoder)

def toJson (manifest : AppManifest) : Json :=
  .object [("appName", .string manifest.appName), ("group", .string manifest.group),
    ("kinds", .array (manifest.kinds.map KindDefinition.toJson))]

end AppManifest

end ResourceKinds
