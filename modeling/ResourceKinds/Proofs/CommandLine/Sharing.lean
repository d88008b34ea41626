import ResourceKinds.CommandLine.Program
import ResourceKinds.Proofs.Artifact.Insertion
import ResourceKinds.Proofs.Generator.DefinitionRuns
import ResourceKinds.Proofs.Generator.ManifestRuns
import ResourceKinds.Proofs.Generator.PipelineRuns
import ResourceKinds.Proofs.Json.Quoting

namespace ResourceKinds

namespace Settings

variable {settings : Settings} {encoding : Encoding} {around : Surroundings} {root : String}
  {manifests : List AppManifest} {set : ArtifactSet}

/-- The definitions of manifests that have kinds. -/
def definitions (settings : Settings) (encoding : Encoding) : Generator CacheM AppManifest :=
  (Generator.definitions encoding settings.preferredVersions).filter AppManifest.hasKinds

/-- The documents of manifests that have kinds. -/
def documents (settings : Settings) (encoding : Encoding) : Generator CacheM AppManifest :=
  (Generator.manifests encoding settings.manifestVersion).filter AppManifest.hasKinds

/-- A batch ends well when its generators and the writing of their files do. -/
theorem generate_eq_ok : (settings.generate encoding around root manifests).2 = .ok set ↔
    ((Pipeline.runFrom (pure false) settings.collisionPolicy manifests (settings.generators encoding) .empty).run.run
      .empty).value.1 = .ok set ∧
    ((OutputDirectory.make around.home root settings.output.folder settings.output.listChecksums).write set
      around.files).2 = .ok () := by
  unfold generate Pipeline.runAndCommit Pipeline.run
  dsimp only
  rw [StateT.run_bind, Logged.bind_value]
  generalize ((Pipeline.runFrom (pure false) settings.collisionPolicy manifests
    (settings.generators encoding) .empty).run.run
    .empty).value = result
  obtain ⟨answer, cache⟩ := result
  cases answer with
  | error error => exact ⟨nofun, fun both => nomatch both.1⟩
  | ok made =>
    change (((OutputDirectory.make around.home root settings.output.folder settings.output.listChecksums).write made
      around.files).2.mapError Error.file).map (fun _ => made) = .ok set ↔ _
    constructor
    · intro written
      obtain ⟨_, done, rfl⟩ := map_eq_ok.mp written
      refine ⟨rfl, ?_⟩
      generalize ((OutputDirectory.make around.home root settings.output.folder settings.output.listChecksums).write made
        around.files).2 = result at done ⊢
      cases result with
      | error error => cases done
      | ok => rfl
    · rintro ⟨same, written⟩
      obtain rfl := Except.ok.inj same
      rw [written]
      rfl

/-- The files of a batch, generator by generator and manifest by manifest. -/
theorem generators_lead : Leads (ManifestCache.Holds [])
    (Pipeline.runFrom (pure false) settings.collisionPolicy manifests (settings.generators encoding) .empty)
      fun set _ =>
    ∃ definitions documents routes,
      Aligned (fun before manifest made => manifest.Agrees before →
        (settings.definitions encoding).alone manifest = .ok made) [] manifests definitions ∧
      Aligned (fun before manifest made =>
        (settings.documents encoding).alone (manifest.standIn before) = .ok made) [] manifests documents ∧
      (((Generator.routes encoding settings.preferredVersions).run manifests).run.run .empty).value.1 = .ok routes ∧
      (ArtifactSet.empty.insertAll settings.collisionPolicy
        (definitions.flatten ++ documents.flatten ++ routes)).value = .ok set := by
  unfold generators
  rw [Pipeline.runFrom_cons]
  refine (Pipeline.step_leads (Generator.definitions_batch manifests)).bind fun first => Leads.given ?_
  rintro ⟨_, ⟨definitions, rfl, defined⟩, inserted⟩
  rw [Pipeline.runFrom_cons]
  refine (Pipeline.step_leads (Generator.manifests_batch manifests)).bind fun second => Leads.given ?_
  rintro ⟨_, ⟨documents, rfl, documented⟩, insertedNext⟩
  rw [Pipeline.runFrom_cons]
  refine (Pipeline.step_leads Generator.routes_leads).bind fun third => Leads.given ?_
  rintro ⟨routes, routed, insertedLast⟩
  refine Leads.pure fun cache _ => ⟨definitions, documents, routes, defined, documented, routed, ?_⟩
  rw [List.append_assoc]
  refine ArtifactSet.insertAll_append_eq_ok.mpr ⟨first, inserted, ?_⟩
  exact ArtifactSet.insertAll_append_eq_ok.mpr ⟨second, insertedNext, insertedLast⟩

end Settings

namespace Shop

/-- The one version of the carts, whose specification has one field. -/
def version (field : String) : KindVersion :=
  let spec : SchemaNode := .object [(field, .scalar none .empty)] .none ⟨[], false, .empty⟩
  ⟨"v1", ⟨[("Cart", .object [("spec", spec)] .none ⟨[], false, .empty⟩)]⟩, [], [], ⟨true, true⟩, .none, false, true⟩

def kind (field : String) : KindDefinition :=
  ⟨"shop.dev", "Cart", .namespaced, "", "carts", [version field], none⟩

/-- A shop of always the same name, whatever field its carts have. -/
def manifest (field : String) : AppManifest := ⟨"shop", "shop.dev", [kind field]⟩

def synthesized (field : String) : Synthesized :=
  let spec : StructuralNode := .object [(field, .scalar none .empty)] none ⟨[], false, .empty⟩
  ⟨"Cart", ⟨[("spec", spec)], none, ⟨[], false, .empty⟩⟩, [], []⟩

def properties (field : String) : Json :=
  .object [("spec", .object [("properties", .object [(field, .object [])]), ("type", .string "object")])]

def schema (field : String) : Json :=
  .object [("properties", properties field), ("required", .array [.string "spec"]), ("type", .string "object")]

def definition (field : String) : ResourceDefinition :=
  ⟨"carts.shop.dev", "shop.dev", "Cart", "carts", "cart", .namespaced, false,
    [⟨"v1", true, true, schema field, false, [], []⟩]⟩

def content (field : String) : ManifestDocument :=
  ⟨ManifestDocument.defaultApiVersion, "shop", "shop.dev",
    [⟨"Cart", .namespaced, false, [⟨"v1", properties field, [], .none⟩]⟩]⟩

def routes : KindRoutes := ⟨"shop", ⟨"shop.dev", "Cart", "v1", false, ["v1"]⟩⟩

def definitionFile (field : String) : Artifact :=
  (Generator.document .json "crd/carts.shop.dev" (definition field).toJson).stamp ["crd"]

def documentFile (field : String) : Artifact :=
  (Generator.document .json "manifests/shop" (content field).toJson).stamp ["manifest"]

def routesFile : Artifact :=
  (Generator.document .json "conversions" (.array [routes.toJson, routes.toJson])).stamp ["routes"]

/-- What is kept once the definitions have been made. -/
def cache (field : String) : ManifestCache := ⟨[("shop", ⟨none, none, [(⟨"v1", "Cart"⟩, synthesized field)]⟩)], 0, 1⟩

/-- What is kept once the documents have been made, too. -/
def viewedCache (field : String) : ManifestCache :=
  let view : ManifestView :=
    ⟨"shop", "shop.dev", [kind field], true, [(⟨"v1", "Cart"⟩, .ok (synthesized field))]⟩
  ⟨[("shop", ⟨some view, none, [(⟨"v1", "Cart"⟩, synthesized field)]⟩)], 1, 1⟩

def settings : Settings := { Settings.default with output := ⟨"generated", .json, "", false⟩ }

def set : ArtifactSet := ⟨[definitionFile "size", documentFile "size", routesFile], []⟩

theorem restateSchema_schema (field : String) :
    Json.restateSchema (synthesized field).schema.toJson = .ok (schema field) := by
  have stated : (synthesized field).schema.toJson = schema field := by cbv
  have properties : KeywordType.ofKeyword? "properties" = some .schemasByName := by rfl
  have required : KeywordType.ofKeyword? "required" = some .texts := by rfl
  have type : KeywordType.ofKeyword? "type" = some .text := by rfl
  rw [stated]
  simp [schema, Shop.properties, Json.restateSchema, Json.restateMembers, Json.restateKeyword,
    Json.restateSchemasByName,
    properties, required, type]
  rfl

theorem schema_first (field : String) : Gives .empty
    (ExceptT.mk (ManifestCache.kindVersionSchema (manifest field) "Cart" "v1")) (synthesized field) (cache field) := by
  unfold Gives
  cbv

theorem schema_later (field kept : String) : Gives (cache kept)
    (ExceptT.mk (ManifestCache.kindVersionSchema (manifest field) "Cart" "v1")) (synthesized kept) (cache kept) := rfl

/-- The definition is made of the schema that is kept. -/
theorem definitions_gives {field kept : String} {before : ManifestCache}
    (known : Gives before (ExceptT.mk (ManifestCache.kindVersionSchema (manifest field) "Cart" "v1")) (synthesized kept)
      (cache kept)) :
    Gives before ((settings.definitions .json).run [manifest field]) [definitionFile kept] (cache kept) := by
  have named : (kind field).crdName = "carts.shop.dev" := by rfl
  have singular : Text.lowercase "Cart" = "cart" := by decide +kernel
  have wired : ((kind field).wireLogged none).value = .ok ⟨"shop.dev", "Cart", "v1", false, ["v1"]⟩ := by rfl
  have stated := ResourceDefinition.buildVersion_gives "v1" (version field) known rfl (restateSchema_schema kept)
  have built : Gives before (ResourceDefinition.build [] (manifest field) (kind field)) (definition kept)
    (cache kept) := by
    unfold ResourceDefinition.build
    refine (Gives.ofGraph wired).bind ((Gives.mapM_cons stated Gives.mapM_nil).bind ?_)
    rw [named, show (kind field).kind = "Cart" from rfl, singular]
    exact Gives.pure
  have merged : KindDefinition.mergeAll (manifest field).kinds = [kind field] := rfl
  have kinds : (manifest field).hasKinds := rfl
  unfold Settings.definitions
  rw [Generator.run_filter (by simp [Generator.shape, Generator.definitions]), if_pos kinds]
  simp only [Generator.run, Generator.generate, Generator.definitions, List.mapM_cons, List.mapM_nil, bind_assoc,
    pure_bind, merged, Generator.definitionPlace, named]
  exact built.bind Gives.pure

theorem documents_first (field : String) :
    Gives (cache field) ((settings.documents .json).run [manifest field]) [documentFile field] (viewedCache field) := by
  unfold Gives Settings.documents Generator.manifests documentFile
  generalize Generator.document = make
  rfl

theorem documents_later (field kept : String) :
    Gives (viewedCache kept) ((settings.documents .json).run [manifest field]) [documentFile kept]
      (viewedCache kept) := by
  unfold Gives Settings.documents Generator.manifests documentFile
  generalize Generator.document = make
  rfl

theorem documents_alone (field : String) :
    (settings.documents .json).alone (manifest field) = .ok [documentFile field] := by
  have resolved : (manifest field).resolveGroup = .ok "shop.dev" := rfl
  have viewed : ((manifest field).buildView "shop.dev" true []).value.1 =
      ⟨"shop", "shop.dev", [kind field], true, [(⟨"v1", "Cart"⟩, .ok (synthesized field))]⟩ := by cbv
  have kinds : (manifest field).hasKinds := rfl
  have unfiltered : (settings.documents .json).alone (manifest field) =
      (Generator.manifests .json settings.manifestVersion).alone (manifest field) := by
    rw [Generator.alone, Settings.documents, Generator.run_filter Generator.manifests_single, if_pos kinds,
      Generator.alone]
  rw [unfiltered, Generator.alone_of_view resolved .empty, viewed]
  unfold Generator.filesOfView documentFile
  generalize Generator.document = make
  rfl

theorem routes_gives (one other : String) (cache : ManifestCache) :
    Gives cache ((Generator.routes .json []).run [manifest one, manifest other]) [routesFile] cache := by
  unfold Gives Generator.routes routesFile
  generalize Generator.document = make
  rfl

theorem write_set : ((OutputDirectory.make [] "/out" "" false).write set .empty).2 = .ok () := by
  have written : ((OutputDirectory.make [] "/out" "" false).write set .empty).2.isOk = true := by decide +kernel
  generalize ((OutputDirectory.make [] "/out" "" false).write set .empty).2 = result at written ⊢
  cases result with
  | error error => cases written
  | ok => rfl

/-- The second shop gets what has been made of the first one. -/
theorem generate_manifests :
    (settings.generate .json ⟨.empty, [], []⟩ "/out" [manifest "size", manifest "color"]).2 = .ok set := by
  refine Settings.generate_eq_ok.mpr ⟨?_, write_set⟩
  have definitions := Generator.run_cons_gives
    (by rw [Settings.definitions, Generator.shape_filter]; exact Generator.definitions_single)
    (definitions_gives (schema_first "size")) (definitions_gives (schema_later "color" "size"))
  have documents := Generator.run_cons_gives
    (by rw [Settings.documents, Generator.shape_filter]; exact Generator.manifests_single)
    (documents_first "size") (documents_later "color" "size")
  have run : Gives .empty (Pipeline.runFrom (pure false) .error [manifest "size", manifest "color"]
      (settings.generators .json) .empty) set (viewedCache "size") := by
    have first : (ArtifactSet.empty.insertAll .error [definitionFile "size", definitionFile "size"]).value =
        .ok ⟨[definitionFile "size"], []⟩ := ArtifactSet.insertAll_pair .error rfl rfl
    have second : (ArtifactSet.insertAll ⟨[definitionFile "size"], []⟩ .error
        [documentFile "size", documentFile "size"]).value = .ok ⟨[definitionFile "size", documentFile "size"], []⟩ :=
      ArtifactSet.insertAll_pair .error rfl rfl
    have third : (ArtifactSet.insertAll ⟨[definitionFile "size", documentFile "size"], []⟩ .error [routesFile]).value =
        .ok set := ArtifactSet.insertAll_cons_eq_ok.mpr ⟨_, ArtifactSet.insert_new .error rfl, rfl⟩
    unfold Settings.generators
    rw [Pipeline.runFrom_cons]
    refine (Pipeline.step_gives definitions first).bind ?_
    rw [Pipeline.runFrom_cons]
    refine (Pipeline.step_gives documents second).bind ?_
    rw [Pipeline.runFrom_cons]
    exact (Pipeline.step_gives (routes_gives "size" "color" _) third).bind Gives.pure
  exact congrArg Prod.fst run

theorem definitionFile_path (field : String) : (definitionFile field).path = "crd/carts.shop.dev.json" := rfl

theorem documentFile_path (field : String) : (documentFile field).path = "manifests/shop.json" := rfl

theorem length_quote : (Json.quote "color").length = (Json.quote "size").length + 1 := by
  rw [← String.length_toList, ← String.length_toList, Json.toList_quote, Json.toList_quote]
  decide

theorem definitionFile_ne : (definitionFile "size").text ≠ (definitionFile "color").text := by
  have stated (field : String) : DefinedVersion.toJson ⟨"v1", true, true, schema field, false, [], []⟩ =
      .object [("name", .string "v1"), ("schema", .object [("openAPIV3Schema", schema field)]), ("served", .bool true),
        ("storage", .bool true)] := rfl
  intro same
  have lengths := congrArg String.length same
  simp only [definitionFile, definition, ResourceDefinition.toJson, List.map_cons, List.map_nil, stated] at lengths
  simp [schema, properties, Generator.document, Artifact.ofText, Artifact.stamp, Encoding.render, Json.pretty,
    Json.indented, Json.indentedMembers, Json.indentedItems] at lengths
  have longer := length_quote
  omega

theorem documentFile_ne : (documentFile "size").text ≠ (documentFile "color").text := by
  intro same
  have lengths := congrArg String.length same
  simp [documentFile, content, properties, ManifestDocument.toJson, ListedKind.toJson, ListedVersion.toJson,
    Generator.document, Artifact.ofText, Artifact.stamp, Encoding.render, Json.pretty, Json.indented,
    Json.indentedMembers, Json.indentedItems] at lengths
  have longer := length_quote
  omega

end Shop

namespace Settings

variable {settings : Settings} {encoding : Encoding} {around : Surroundings} {root : String}
  {manifests : List AppManifest} {set : ArtifactSet}

/-- A batch that ends well makes of each manifest the definitions that it has alone, unless an earlier manifest of its
app declares one of its versions differently, and the document that the first manifest of its app with kinds has alone.
Whatever is made is in the set with its content, or its collision is recorded. -/
theorem generate_shares (succeeded : (settings.generate encoding around root manifests).2 = .ok set) :
    ∃ definitions documents routes,
      Aligned (fun before manifest made => manifest.Agrees before →
        (settings.definitions encoding).alone manifest = .ok made) [] manifests definitions ∧
      Aligned (fun before manifest made =>
        (settings.documents encoding).alone (manifest.standIn before) = .ok made) [] manifests documents ∧
      Aligned (fun before manifest (made : List Artifact × List Artifact) =>
        (∀ earlier ∈ before, earlier.hasKinds → earlier.appName ≠ manifest.appName) →
          (settings.definitions encoding).alone manifest = .ok made.1 ∧
          (settings.documents encoding).alone manifest = .ok made.2) [] manifests (definitions.zip documents) ∧
      (((Generator.routes encoding settings.preferredVersions).run manifests).run.run .empty).value.1 = .ok routes ∧
      (ArtifactSet.empty.insertAll settings.collisionPolicy
        (definitions.flatten ++ documents.flatten ++ routes)).value = .ok set ∧
      ∀ artifact ∈ definitions.flatten ++ documents.flatten ++ routes,
        set.Accounts settings.collisionPolicy artifact := by
  obtain ⟨definitions, documents, routes, defined, documented, routed, inserted⟩ :=
    generators_lead .empty ManifestCache.holds_empty set (generate_eq_ok.mp succeeded).1
  refine ⟨definitions, documents, routes, defined, documented, ?_, routed, inserted, fun artifact inside => ?_⟩
  · refine (defined.zip documented).imp fun before manifest made ⟨defines, documents⟩ apart => ?_
    rw [AppManifest.standIn_of_apart apart] at documents
    exact ⟨defines (AppManifest.agrees_of_apart apart), documents⟩
  · exact ArtifactSet.accounts_of_insertAll inserted artifact (.inl inside)

/-- The second shop gets the document of the first one, and no collision comes of it. -/
theorem generate_shares_shops :
    (Shop.settings.generate .json ⟨.empty, [], []⟩ "/out" [Shop.manifest "size", Shop.manifest "color"]).2 =
      .ok Shop.set ∧
    ∃ definitions documents routes,
      Aligned (fun before manifest made => manifest.Agrees before →
        (Shop.settings.definitions .json).alone manifest = .ok made) []
        [Shop.manifest "size", Shop.manifest "color"] definitions ∧
      Aligned (fun before manifest made =>
        (Shop.settings.documents .json).alone (manifest.standIn before) = .ok made) []
        [Shop.manifest "size", Shop.manifest "color"] documents ∧
      (ArtifactSet.empty.insertAll .error (definitions.flatten ++ documents.flatten ++ routes)).value =
        .ok Shop.set := by
  obtain ⟨definitions, documents, routes, defined, documented, _, _, inserted, _⟩ :=
    generate_shares Shop.generate_manifests
  exact ⟨Shop.generate_manifests, definitions, documents, routes, defined, documented, inserted⟩

/-- The files that the second shop would have alone are nowhere, and nothing tells of them. -/
theorem generate_loses_files :
    (Shop.settings.generate .json ⟨.empty, [], []⟩ "/out" [Shop.manifest "size", Shop.manifest "color"]).2 =
      .ok ⟨[Shop.definitionFile "size", Shop.documentFile "size", Shop.routesFile], []⟩ ∧
    (Shop.settings.definitions .json).alone (Shop.manifest "color") = .ok [Shop.definitionFile "color"] ∧
    (Shop.definitionFile "color").path = (Shop.definitionFile "size").path ∧
    (Shop.definitionFile "size").text ≠ (Shop.definitionFile "color").text ∧
    (Shop.settings.documents .json).alone (Shop.manifest "color") = .ok [Shop.documentFile "color"] ∧
    (Shop.documentFile "color").path = (Shop.documentFile "size").path ∧
    (Shop.documentFile "size").text ≠ (Shop.documentFile "color").text :=
  ⟨Shop.generate_manifests, congrArg Prod.fst (Shop.definitions_gives (Shop.schema_first "color")),
    (Shop.definitionFile_path _).trans (Shop.definitionFile_path _).symm, Shop.definitionFile_ne,
    Shop.documents_alone "color", (Shop.documentFile_path _).trans (Shop.documentFile_path _).symm,
    Shop.documentFile_ne⟩

end Settings

end ResourceKinds
