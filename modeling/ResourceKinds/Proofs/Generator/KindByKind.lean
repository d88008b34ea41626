import ResourceKinds.Proofs.Generator.DefinitionRuns
import ResourceKinds.Proofs.Generator.SplitKinds

namespace ResourceKinds

variable {α β ε : Type}

theorem map_mapM {γ : Type} {m : Type → Type} [Monad m] [LawfulMonad m] (work : α → m β) (change : β → γ)
    (items : List α) :
    (do return (← items.mapM work).map change) = items.mapM fun item => do return change (← work item) := by
  induction items with
  | nil => simp
  | cons item rest ih =>
    rw [List.mapM_cons, List.mapM_cons, ← ih]
    simp

/-- A sequence answers as its second part does from the cache that the first part leaves. -/
theorem run_bind_answer {first : ExceptT ε CacheM α} {next : α → ExceptT ε CacheM β} {cache : ManifestCache} :
    ((first >>= next).run.run cache).value.1 = (first.run.run cache).value.1 >>= fun value =>
      ((next value).run.run (first.run.run cache).value.2).value.1 := by
  rw [ExceptT.run_bind, StateT.run_bind, Logged.bind_value]
  cases (first.run.run cache).value.1 <;> rfl

theorem run_ofExcept {answer : Except ε α} {cache : ManifestCache} :
    ((liftM answer : ExceptT ε CacheM α).run.run cache).value = (answer, cache) := by
  cases answer <;> rfl

/-- The items of a loop that is settled answer as they do from any other cache with the property, which is all that is
known of the cache that an item finds. -/
theorem Settled.mapM_answer {holds : ManifestCache → Prop} {work : α → ExceptT ε CacheM β} {items : List α}
    (step : ∀ item ∈ items, Settled holds (work item)) {one other : ManifestCache} (first : holds one)
    (second : holds other) :
    ((items.mapM work).run.run one).value.1 = items.mapM fun item => ((work item).run.run other).value.1 := by
  induction items generalizing one with
  | nil => rfl
  | cons item rest ih =>
    obtain ⟨here, later⟩ := List.forall_mem_cons.mp step
    have remaining := ih later (here.keeps first)
    rw [List.mapM_cons, List.mapM_cons, run_bind_answer, here.eq first second]
    refine bind_congr fun result => ?_
    rw [run_bind_answer, remaining]
    exact bind_congr fun results => rfl

open KindDefinition (mergeAll)
open ManifestCache (Faithful)

/-- What a definition says about a version, by the schema that the manifest alone gives it. -/
def DefinedVersion.Describes (manifest : AppManifest) (kind hub : String) (version : KindVersion)
    (defined : DefinedVersion) : Prop :=
  ∃ synthesized schema, manifest.schemaOf kind version.name = .ok synthesized ∧
    synthesized.schema.checkSelectable kind version.name version.selectableFields = .ok () ∧
    Json.restateSchema synthesized.schema.toJson = .ok schema ∧
    defined = ⟨version.name, version.served, version.name = hub, schema,
      synthesized.subresources.contains statusProperty, version.selectableFields, version.printerColumns⟩

/-- What the definition of a kind says, by the kind's graph. -/
structure ResourceDefinition.Describes (manifest : AppManifest) (kind : KindDefinition) (graph : VersionGraph)
    (definition : ResourceDefinition) : Prop where
  versions : List.Forall₂ (DefinedVersion.Describes manifest kind.kind graph.hub) kind.versions definition.versions
  rest : definition = ⟨kind.crdName, kind.group, kind.kind, kind.pluralName, Text.lowercase kind.kind, kind.scope,
    graph.conversion, definition.versions⟩

/-- What a definition takes over from a version, and the mark that it gives the hub. -/
theorem DefinedVersion.Describes.takes {manifest : AppManifest} {kind hub : String} {version : KindVersion}
    {defined : DefinedVersion} (describes : DefinedVersion.Describes manifest kind hub version defined) :
    version.name = defined.name ∧ version.selectableFields = defined.selectableFields ∧
      defined.storage = decide (defined.name = hub) := by
  obtain ⟨_, _, _, _, _, rfl⟩ := describes
  exact ⟨rfl, rfl, rfl⟩

namespace ResourceDefinition

variable {manifest : AppManifest} {cache : ManifestCache} {preferred : Fields String} {kind : KindDefinition}
  {definition : ResourceDefinition}

theorem buildVersion_answer {kind hub : String} {version : KindVersion} {defined : DefinedVersion}
    (declared : (manifest.kindVersion? kind version.name).isSome = true) (faithful : Faithful manifest cache) :
    ((buildVersion manifest kind hub version).run.run cache).value.1 = .ok defined ↔
      DefinedVersion.Describes manifest kind hub version defined := by
  have asked : (ManifestCache.kindVersionSchema manifest kind version.name cache).value.1 =
    manifest.schemaOf kind version.name := (ManifestCache.kindVersionSchema_faithful declared cache faithful).1
  unfold buildVersion DefinedVersion.Describes
  rw [run_bind_answer, ExceptT.run_mk, StateT.run, asked, bind_eq_ok]
  constructor
  · rintro ⟨synthesized, own, later⟩
    obtain ⟨_, selectable, later⟩ := bind_eq_ok.mp (run_bind_answer.symm.trans later)
    obtain ⟨schema, stated, made⟩ := bind_eq_ok.mp (run_bind_answer.symm.trans later)
    rw [run_ofExcept] at stated
    exact ⟨synthesized, schema, own, mapError_eq_ok.mp selectable, mapError_eq_ok.mp stated, (Except.ok.inj made).symm⟩
  · rintro ⟨synthesized, schema, own, selectable, stated, rfl⟩
    refine ⟨synthesized, own, run_bind_answer.trans ?_⟩
    refine bind_eq_ok.mpr ⟨(), mapError_eq_ok.mpr selectable, run_bind_answer.trans ?_⟩
    refine bind_eq_ok.mpr ⟨schema, ?_, rfl⟩
    rw [run_ofExcept]
    exact mapError_eq_ok.mpr stated

/-- What comes of one kind of a manifest when nothing has been derived from any other. -/
def alone (preferred : Fields String) (manifest : AppManifest) (kind : KindDefinition) :
    Except Error ResourceDefinition := ((build preferred manifest kind).run.run .empty).value.1

/-- A kind has a definition when it can be wired and each of its versions has a schema that can be stated. -/
theorem alone_eq_ok (inside : kind ∈ mergeAll manifest.kinds) : alone preferred manifest kind = .ok definition ↔
    ∃ graph, kind.wire (preferred.lookup kind.kind) = .ok graph ∧ Describes manifest kind graph definition := by
  have faithful := ManifestCache.faithful_empty manifest
  have declared (version : KindVersion) (inKind : version ∈ kind.versions) :
      (manifest.kindVersion? kind.kind version.name).isSome = true :=
    AppManifest.isSome_kindVersion?_of_merged inside inKind
  have described (hub : String) (versions : List DefinedVersion) :
      ((kind.versions.mapM (buildVersion manifest kind.kind hub)).run.run .empty).value.1 = .ok versions ↔
        List.Forall₂ (DefinedVersion.Describes manifest kind.kind hub) kind.versions versions := by
    rw [Settled.mapM_answer (fun version inKind => buildVersion_settled (declared version inKind)) faithful faithful,
      mapM_eq_ok]
    exact forall₂_congr_of_mem fun version inKind _ => buildVersion_answer (declared version inKind) faithful
  unfold alone build
  rw [run_bind_answer, bind_eq_ok]
  constructor
  · rintro ⟨graph, wired, later⟩
    obtain ⟨versions, built, made⟩ := bind_eq_ok.mp (run_bind_answer.symm.trans later)
    obtain rfl := Except.ok.inj made
    exact ⟨graph, mapError_eq_ok.mp wired, (described graph.hub versions).mp built, rfl⟩
  · rintro ⟨graph, wired, describes⟩
    refine ⟨graph, mapError_eq_ok.mpr wired, run_bind_answer.trans ?_⟩
    refine bind_eq_ok.mpr ⟨definition.versions, (described graph.hub _).mpr describes.versions, ?_⟩
    exact congrArg Except.ok describes.rest.symm

theorem Describes.exists_schema {graph : VersionGraph} (describes : Describes manifest kind graph definition) :
    ∀ version ∈ kind.versions, ∃ synthesized, manifest.schemaOf kind.kind version.name = .ok synthesized := by
  intro version declared
  obtain ⟨_, _, synthesized, _, own, _⟩ := (exists_of_forall₂ describes.versions).2 version declared
  exact ⟨synthesized, own⟩

/-- A kind with a definition has versions, and its manifest has a group. -/
theorem exists_group_of_alone (inside : kind ∈ mergeAll manifest.kinds)
    (built : alone preferred manifest kind = .ok definition) : ∃ group, manifest.resolveGroup = .ok group := by
  obtain ⟨graph, wired, describes⟩ := (alone_eq_ok inside).mp built
  obtain ⟨version, declared, _⟩ := List.mem_map.mp (KindDefinition.wired_of_wire wired).hub
  obtain ⟨synthesized, own⟩ := describes.exists_schema version declared
  exact (AppManifest.schemaOf_eq_ok.mp own).1

end ResourceDefinition

namespace AppManifest

def deskStatement : Json := .object [("properties", .object []), ("type", .string "object")]

def definedDesk (hub : String) (version : KindVersion) : DefinedVersion :=
  ⟨version.name, version.served, version.name = hub, deskStatement, false, version.selectableFields,
    version.printerColumns⟩

def deskDefinition (kind : KindDefinition) (graph : VersionGraph) : ResourceDefinition :=
  ⟨kind.crdName, kind.group, kind.kind, kind.pluralName, Text.lowercase kind.kind, kind.scope, graph.conversion,
    kind.versions.map (definedDesk graph.hub)⟩

theorem restateSchema_desk : Json.restateSchema deskSchema.schema.toJson = .ok deskStatement := by
  have rendered : deskSchema.schema.toJson = deskStatement := by cbv
  have properties : KeywordType.ofKeyword? "properties" = some .schemasByName := by rfl
  have type : KeywordType.ofKeyword? "type" = some .text := by rfl
  rw [rendered]
  simp [deskStatement, Json.restateSchema, Json.restateMembers, Json.restateKeyword, Json.restateSchemasByName,
    properties, type]
  rfl

variable {kinds : List KindDefinition} (resolved : (desks kinds).resolveGroup = .ok "desks.dev") {kind : String}
  {own : Option String} {names : List String} (inside : deskKind kind own names ∈ mergeAll kinds)

include resolved inside

/-- A kind of desks that can be wired has a definition. -/
theorem alone_desk {preferred : Fields String} {graph : VersionGraph}
    (wired : (deskKind kind own names).wire (preferred.lookup kind) = .ok graph) :
    ResourceDefinition.alone preferred (desks kinds) (deskKind kind own names) =
      .ok (deskDefinition (deskKind kind own names) graph) := by
  refine (ResourceDefinition.alone_eq_ok inside).mpr ⟨graph, wired, ?_, rfl⟩
  refine List.forall₂_map_right_iff.mpr (List.forall₂_same.mpr fun version declared => ?_)
  obtain ⟨name, among, rfl⟩ := List.mem_map.mp declared
  exact ⟨deskSchema, deskStatement, schemaOf_desk resolved inside among, rfl, restateSchema_desk, rfl⟩

end AppManifest

namespace Generator

variable {encoding : Encoding} {preferred : Fields String} {manifest : AppManifest} {files : List Artifact}

/-- The file of the definition of a kind. -/
def definitionFile (encoding : Encoding) (kind : KindDefinition) (definition : ResourceDefinition) : Artifact :=
  (document encoding (definitionPlace kind) definition.toJson).stamp ["crd"]

/-- The file is that of the definition that the kind has alone. -/
def Defines (encoding : Encoding) (preferred : Fields String) (manifest : AppManifest) (kind : KindDefinition)
    (file : Artifact) : Prop :=
  ∃ definition, ResourceDefinition.alone preferred manifest kind = .ok definition ∧
    file = definitionFile encoding kind definition

theorem definitions_run : (definitions encoding preferred).run [manifest] = (mergeAll manifest.kinds).mapM fun kind => do
    return definitionFile encoding kind (← ResourceDefinition.build preferred manifest kind) := by
  simp only [run, Generator.generate, definitions, List.mapM_cons, List.mapM_nil, bind_assoc, pure_bind,
    List.flatten_cons, List.flatten_nil, List.append_nil]
  rw [map_mapM]
  simp only [bind_assoc, pure_bind]
  rfl

/-- The definitions of a manifest are those of its kinds. -/
theorem definitions_alone_eq_ok : (definitions encoding preferred).alone manifest = .ok files ↔
    List.Forall₂ (Defines encoding preferred manifest) (mergeAll manifest.kinds) files := by
  have faithful := ManifestCache.faithful_empty manifest
  have settled (kind : KindDefinition) (inside : kind ∈ mergeAll manifest.kinds) : Settled (Faithful manifest) (do
      return definitionFile encoding kind (← ResourceDefinition.build preferred manifest kind)) :=
    (ResourceDefinition.build_settled preferred inside).bind fun _ => Settled.pure
  unfold alone
  rw [definitions_run, Settled.mapM_answer settled faithful faithful, mapM_eq_ok]
  have defines (kind : KindDefinition) (file : Artifact) : ((do
        return definitionFile encoding kind (← ResourceDefinition.build preferred manifest kind) :
        BuildM Artifact).run.run .empty).value.1 = .ok file ↔ Defines encoding preferred manifest kind file := by
    rw [run_bind_answer, bind_eq_ok]
    refine exists_congr fun definition => and_congr_right fun _ => ?_
    exact ⟨fun same => (Except.ok.inj same).symm, fun same => congrArg Except.ok same.symm⟩
  simp only [defines]

/-- A manifest with kinds that all have definitions has a group. -/
theorem exists_group_of_defines (kinds : manifest.kinds ≠ [])
    (defined : List.Forall₂ (Defines encoding preferred manifest) (mergeAll manifest.kinds) files) :
    ∃ group, manifest.resolveGroup = .ok group := by
  obtain ⟨first, inKinds⟩ := List.exists_mem_of_ne_nil _ kinds
  obtain ⟨merged, inside, _⟩ := KindDefinition.exists_named_mergeAll.mpr ⟨first, inKinds, rfl, rfl⟩
  obtain ⟨_, _, definition, alone, _⟩ := (exists_of_forall₂ defined).2 merged inside
  exact ResourceDefinition.exists_group_of_alone inside alone

end Generator

end ResourceKinds
