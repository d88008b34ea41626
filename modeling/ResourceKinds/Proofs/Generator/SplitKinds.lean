import ResourceKinds.Proofs.CacheOrder
import ResourceKinds.Proofs.Conversion.Registration
import ResourceKinds.Proofs.Generator.ManifestRuns
import ResourceKinds.Proofs.Kind.Splitting
import ResourceKinds.Conversion.Registry
import ResourceKinds.Generator.Documents

namespace ResourceKinds

theorem BuildM.throw_bind {α β : Type} (error : Error) (next : α → BuildM β) :
    (throw error : BuildM α) >>= next = throw error := rfl

theorem ResourceDefinition.build_of_unwired {kind : KindDefinition} {error : VersionGraphError}
    (fails : ∀ preferred, kind.wireLogged preferred = ⟨.error error, []⟩) {preferred : Fields String}
    {manifest : AppManifest} : build preferred manifest kind = throw (.versionGraph error) := by
  simp only [build, fails]
  rfl

namespace ManifestCache

theorem kindVersionSchema_congr {a b : AppManifest} (sameApp : a.appName = b.appName)
    (sameGroup : a.resolveGroup = b.resolveGroup) {kind version : String}
    (sameVersion : ∀ group, b.resolveGroup = .ok group → a.kindVersion? kind version = b.kindVersion? kind version) :
    kindVersionSchema a kind version = kindVersionSchema b kind version := by
  funext cache
  unfold kindVersionSchema
  rw [sameApp, sameGroup]
  cases resolved : b.resolveGroup with
  | error error => rfl
  | ok group => rw [sameVersion group resolved]

end ManifestCache

namespace AppManifest.Splits

variable {whole split : AppManifest}

theorem kindVersionSchema (splits : whole.Splits split) (kind version : String) :
    ManifestCache.kindVersionSchema split kind version = ManifestCache.kindVersionSchema whole kind version := by
  refine ManifestCache.kindVersionSchema_congr splits.appName splits.resolveGroup fun group resolved => ?_
  rw [kindVersion?_eq_versionsOf, kindVersion?_eq_versionsOf, splits.versionsOf resolved]

theorem codecsFor (splits : whole.Splits split) (kind : String) (versions : List KindVersion) :
    ConversionRegistry.codecsFor split kind versions = ConversionRegistry.codecsFor whole kind versions := by
  induction versions with
  | nil => rfl
  | cons version rest ih => simp only [ConversionRegistry.codecsFor, splits.kindVersionSchema, ih]

theorem prepare (splits : whole.Splits split) (preferred : Fields String) (converters : Fields Converter)
    {cut merged : KindDefinition} (alike : cut.Alike merged) :
    ConversionRegistry.prepare split preferred converters cut =
      ConversionRegistry.prepare whole preferred converters merged := by
  obtain rfl | ⟨error, unwirable⟩ := alike
  · simp only [ConversionRegistry.prepare, splits.codecsFor]
  · simp only [ConversionRegistry.prepare, unwirable.first, unwirable.second]
    rfl

theorem registerKinds (splits : whole.Splits split) (preferred : Fields String) (converters : Fields Converter)
    {cuts merged : List KindDefinition} (alike : List.Forall₂ KindDefinition.Alike cuts merged)
    (registry : ConversionRegistry) :
    ConversionRegistry.registerKinds split preferred converters cuts registry =
      ConversionRegistry.registerKinds whole preferred converters merged registry := by
  induction alike generalizing registry with
  | nil => rfl
  | @cons cut merged cuts others here _ ih =>
    simp only [ConversionRegistry.registerKinds, splits.prepare preferred converters here, here.kind_eq, ih]

/-- The file of the definition of a kind. Where the definition fails, its name does not matter. -/
theorem definition (splits : whole.Splits split) (encoding : Encoding) (preferred : Fields String)
    {cut merged : KindDefinition} (alike : cut.Alike merged) :
    (do
      let definition ← ResourceDefinition.build preferred split cut
      return Generator.document encoding (Generator.definitionPlace cut) definition.toJson) =
    (do
      let definition ← ResourceDefinition.build preferred whole merged
      return Generator.document encoding (Generator.definitionPlace merged) definition.toJson) := by
  obtain rfl | ⟨error, unwirable⟩ := alike
  · have version : ResourceDefinition.buildVersion split = ResourceDefinition.buildVersion whole := by
      funext kind hub version
      simp only [ResourceDefinition.buildVersion, splits.kindVersionSchema]
    simp only [ResourceDefinition.build, version]
  · rw [ResourceDefinition.build_of_unwired unwirable.first, ResourceDefinition.build_of_unwired unwirable.second,
      BuildM.throw_bind, BuildM.throw_bind]

variable (leads : whole.KeepsLeads split)

include leads

theorem definitions_run (splits : whole.Splits split) (encoding : Encoding) (preferred : Fields String) :
    (Generator.definitions encoding preferred).run [split] =
      (Generator.definitions encoding preferred).run [whole] := by
  have same := mapM_eq_of_forall₂ ((splits.forall₂_merged leads).imp fun _ _ => splits.definition encoding preferred)
  simp only [Generator.run, Generator.generate, Generator.definitions, List.mapM_cons, List.mapM_nil, same]

theorem wire (splits : whole.Splits split) (preferred : Fields String) :
    split.wire preferred = whole.wire preferred ∧ split.wireWarnings preferred = whole.wireWarnings preferred := by
  have alike := splits.forall₂_merged leads
  constructor
  · refine map_eq_of_forall₂ (alike.imp fun cut merged alike => ?_)
    have same := congrArg Logged.value (alike.wireLogged_eq (preferred.lookup cut.kind))
    rw [← alike.kind_eq]
    exact Prod.ext rfl same
  · refine congrArg List.flatten (map_eq_of_forall₂ (alike.imp fun cut merged alike => ?_))
    rw [← alike.kind_eq]
    exact congrArg Logged.warnings (alike.wireLogged_eq (preferred.lookup cut.kind))

theorem routes_run (splits : whole.Splits split) (encoding : Encoding) (preferred : Fields String) :
    (Generator.routes encoding preferred).run [split] = (Generator.routes encoding preferred).run [whole] := by
  obtain ⟨wired, warned⟩ := splits.wire leads preferred
  simp only [Generator.run, Generator.generate, Generator.routes, KindRoutes.build, KindRoutes.ofManifest, wired,
    warned, splits.appName, List.isEmpty_cons]

theorem registerManifest (splits : whole.Splits split) (preferred : Fields String) (converters : Fields Converter)
    (registry : ConversionRegistry) :
    registry.registerManifest split preferred converters = registry.registerManifest whole preferred converters :=
  splits.registerKinds preferred converters (splits.forall₂_merged leads) registry

end AppManifest.Splits

namespace AppManifest

theorem outcomes_eq_versionsOf (manifest : AppManifest) (kind version : String) : manifest.outcomes kind version =
    ((manifest.versionsOf kind).filter fun declared => declared.name = version).map fun declared =>
      declared.schema.synthesize kind version := by
  unfold outcomes outcomesOf declared versionsOf
  induction manifest.kinds with
  | nil => rfl
  | cons definition rest ih =>
    rw [List.flatMap_cons, List.filter_append, List.map_append, ih, List.filter_map, List.map_map]
    by_cases named : definition.kind = kind
    · rw [List.filter_cons_of_pos (by simpa using named), List.flatMap_cons, List.filter_append, List.map_append]
      simp only [Function.comp_def, named, decide_true, Bool.true_and, List.append_cancel_right_eq]
      refine List.map_congr_left fun declared inside => ?_
      rw [of_decide_eq_true (List.mem_filter.mp inside).2]
    · rw [List.filter_cons_of_neg (by simpa using named)]
      simp [Function.comp_def, named]

/-- A view that is built with nothing known has the outcomes of the manifest alone. -/
theorem buildView_schema? (manifest : AppManifest) (group kind version : String) :
    (manifest.buildView group true []).value.1.schema? kind version = manifest.viewed? kind version := by
  have table := (ViewBuild.foldl_lookup ⟨[], [], 0⟩ manifest.declared ⟨version, kind⟩).2
  simp only [buildView, if_true, Logged.bind_value, Logged.foldlM_value]
  exact table.trans Option.or_none

end AppManifest

namespace Generator

theorem manifests_alone_of_error {manifest : AppManifest} {error : ManifestError}
    (unresolved : manifest.resolveGroup = .error error) (encoding : Encoding) (apiVersion : String) :
    (manifests encoding apiVersion).alone manifest = .error (.manifest error) := by
  have failed := ManifestCache.manifest_fails (ManifestCache.view?_empty manifest.appName true) unresolved
  unfold alone
  rw [manifests_run, ExceptT.run_bind, StateT.run_bind, Logged.bind_value, ManifestDocument.view, ExceptT.run_mk,
    StateT.run_bind, failed]
  rfl

theorem filesOfView_congr (encoding : Encoding) (apiVersion app : String) (view other : ManifestView)
    (sameApp : view.appName = other.appName) (sameGroup : view.group = other.group)
    (sameKinds : (KindDefinition.mergeAll view.kinds).mapM (ListedKind.build view) =
      (KindDefinition.mergeAll other.kinds).mapM (ListedKind.build other)) :
    filesOfView encoding apiVersion app view = filesOfView encoding apiVersion app other := by
  unfold filesOfView
  rw [sameKinds, sameApp, sameGroup]

end Generator

namespace AppManifest.Splits

variable {whole split : AppManifest}

/-- A kind is listed by its wiring and by the schemas in the view. -/
theorem listed {view other : ManifestView}
    (schemas : ∀ kind version, view.schema? kind version = other.schema? kind version) {cut merged : KindDefinition}
    (alike : cut.Alike merged) :
    ListedKind.build view cut = ListedKind.build other merged := by
  obtain rfl | ⟨error, unwirable⟩ := alike
  · have version : ListedVersion.build view = ListedVersion.build other := by
      funext kind version
      simp only [ListedVersion.build, schemas]
    simp only [ListedKind.build, version]
  · simp only [ListedKind.build, unwirable.first, unwirable.second]
    rfl

theorem manifests_alone (splits : whole.Splits split) (leads : whole.KeepsLeads split) (encoding : Encoding)
    (apiVersion : String) :
    (Generator.manifests encoding apiVersion).alone split = (Generator.manifests encoding apiVersion).alone whole := by
  cases resolved : whole.resolveGroup with
  | error error =>
    rw [Generator.manifests_alone_of_error resolved,
      Generator.manifests_alone_of_error (splits.resolveGroup.trans resolved)]
  | ok group =>
    rw [Generator.alone_of_view resolved .empty, Generator.alone_of_view (splits.resolveGroup.trans resolved) .empty,
      splits.appName]
    have schemas (kind version : String) : (split.buildView group true []).value.1.schema? kind version =
        (whole.buildView group true []).value.1.schema? kind version := by
      simp only [buildView_schema?, AppManifest.viewed?, outcomes_eq_versionsOf, splits.versionsOf resolved]
    have kinds := mapM_eq_of_forall₂ ((splits.forall₂_merged leads).imp fun _ _ => listed schemas)
    rw [Generator.filesOfView_congr encoding apiVersion whole.appName (split.buildView group true []).value.1
      (whole.buildView group true []).value.1 splits.appName rfl kinds]

/-- Cutting the definitions of a manifest into pieces changes nothing that is made of it. -/
theorem generate_eq (splits : whole.Splits split) (leads : whole.KeepsLeads split) (encoding : Encoding)
    (preferred : Fields String) (apiVersion : String) (converters : Fields Converter) (registry : ConversionRegistry) :
    (Generator.definitions encoding preferred).alone split = (Generator.definitions encoding preferred).alone whole ∧
    (Generator.manifests encoding apiVersion).alone split = (Generator.manifests encoding apiVersion).alone whole ∧
    (Generator.routes encoding preferred).alone split = (Generator.routes encoding preferred).alone whole ∧
    registry.registerManifest split preferred converters = registry.registerManifest whole preferred converters := by
  refine ⟨?_, splits.manifests_alone leads encoding apiVersion, ?_,
    splits.registerManifest leads preferred converters registry⟩
  · unfold Generator.alone
    rw [splits.definitions_run leads]
  · unfold Generator.alone
    rw [splits.routes_run leads]

end AppManifest.Splits

namespace AppManifest

def deskVersion (name : String) : KindVersion where
  name := name
  schema := ⟨[("Desk", .object [] .none ⟨[], false, .empty⟩)]⟩
  selectableFields := []
  printerColumns := []
  codegen := ⟨true, true⟩
  admission := .none
  conversion := false
  served := true

def deskKind (kind : String) (preferred : Option String) (versions : List String) : KindDefinition where
  group := "desks.dev"
  kind := kind
  scope := .namespaced
  machineName := ""
  plural := ""
  versions := versions.map deskVersion
  preferredVersion := preferred

def desks (kinds : List KindDefinition) : AppManifest := ⟨"desks", "", kinds⟩

/-- The schema of every version of every kind of desks. -/
def deskSchema : Synthesized := ⟨"Desk", ⟨[], none, ⟨[], false, .empty⟩⟩, [], []⟩

theorem synthesize_desk (kind name : String) : (deskVersion name).schema.synthesize kind name = .ok deskSchema := by
  cbv

/-- The hub in the registry that the manifest alone is registered in. -/
def registeredHub? (manifest : AppManifest) (kind : String) : Option String :=
  ((ConversionRegistry.empty.registerManifest manifest [] []).run .empty).value.1.1.hub? "desks.dev" kind

section Desks

variable {kinds : List KindDefinition} (resolved : (desks kinds).resolveGroup = .ok "desks.dev") {kind : String}
  {own : Option String} {names : List String} (inside : deskKind kind own names ∈ KindDefinition.mergeAll kinds)

include resolved inside

theorem schemaOf_desk {name : String} (declared : name ∈ names) :
    (desks kinds).schemaOf kind name = .ok deskSchema := by
  have among : deskVersion name ∈ (deskKind kind own names).versions := List.mem_map_of_mem declared
  have known : ((desks kinds).kindVersion? kind name).isSome = true := isSome_kindVersion?_of_merged inside among
  obtain ⟨version, found⟩ := Option.isSome_iff_exists.mp known
  obtain ⟨declares, named⟩ := mem_versions_of_kindVersion? resolved inside found
  obtain ⟨other, _, rfl⟩ := List.mem_map.mp declares
  obtain rfl : other = name := named
  exact schemaOf_eq_ok.mpr ⟨⟨_, resolved⟩, _, found, synthesize_desk kind other⟩

theorem registeredHub?_desk {graph : VersionGraph}
    (wired : (deskKind kind own names).wire (Table.lookup [] kind) = .ok graph) :
    (desks kinds).registeredHub? kind = some graph.hub := by
  have answered : ∀ version ∈ (deskKind kind own names).versions,
      ∃ synthesized, (desks kinds).schemaOf kind version.name = .ok synthesized := by
    intro version declared
    obtain ⟨name, among, rfl⟩ := List.mem_map.mp declared
    exact ⟨deskSchema, schemaOf_desk resolved inside among⟩
  have known := (ConversionRegistry.graph?_registerManifest inside wired answered .empty []).2
  exact congrArg (Option.map VersionGraph.hub) known

end Desks

/-- A kind of two versions, and another kind. -/
def wholeDesks : AppManifest := desks [deskKind "Desk" none ["v1", "v2"], deskKind "Lamp" none ["v1"]]

/-- The other kind between the versions of the first. -/
def splitDesks : AppManifest :=
  desks [deskKind "Desk" none ["v1"], deskKind "Lamp" none ["v1"], deskKind "Desk" none ["v2"]]

theorem splits_desks : wholeDesks.Splits splitDesks where
  appName := rfl
  group := rfl
  pieces := by
    refine ⟨[[deskKind "Desk" none ["v1"], deskKind "Desk" none ["v2"]], [deskKind "Lamp" none ["v1"]]],
      .cons ⟨nofun, ?_, .refl _⟩ (.cons ⟨nofun, ?_, .refl _⟩ .nil), ?_⟩
    · simp [deskKind]
    · simp [deskKind]
    · exact .cons _ (.swap ..)
  order := rfl

theorem keepsLeads_desks : wholeDesks.KeepsLeads splitDesks :=
  keepsLeads_of_versions (by simp [splitDesks, desks, deskKind])

theorem generate_eq_desks : wholeDesks.Splits splitDesks ∧ wholeDesks.KeepsLeads splitDesks ∧
    (Generator.definitions .json []).alone splitDesks = (Generator.definitions .json []).alone wholeDesks ∧
    (Generator.manifests .json "v1").alone splitDesks = (Generator.manifests .json "v1").alone wholeDesks ∧
    (Generator.routes .json []).alone splitDesks = (Generator.routes .json []).alone wholeDesks ∧
    ConversionRegistry.empty.registerManifest splitDesks [] [] =
      ConversionRegistry.empty.registerManifest wholeDesks [] [] :=
  ⟨splits_desks, keepsLeads_desks, splits_desks.generate_eq keepsLeads_desks .json [] "v1" [] .empty⟩

def headedDesks : AppManifest := desks [deskKind "Desk" (some "v1") [], deskKind "Desk" (some "v2") ["v1", "v2"]]

def passedDesks : AppManifest :=
  desks [deskKind "Desk" (some "v2") ["v1"], deskKind "Desk" (some "v1") [], deskKind "Desk" (some "v2") ["v2"]]

/-- A definition without versions that states a preference is passed by a piece of the other definition of its kind. -/
theorem desk_hub_moves : headedDesks.Splits passedDesks ∧ headedDesks.registeredHub? "Desk" = some "v1" ∧
    passedDesks.registeredHub? "Desk" = some "v2" := by
  refine ⟨{ appName := rfl, group := rfl, pieces := ?_, order := rfl }, ?_, ?_⟩
  · refine ⟨[[deskKind "Desk" (some "v1") []],
        [deskKind "Desk" (some "v2") ["v1"], deskKind "Desk" (some "v2") ["v2"]]],
      .cons ⟨nofun, ?_, .refl _⟩ (.cons ⟨nofun, ?_, .refl _⟩ .nil), .swap ..⟩
    · simp [deskKind]
    · simp [deskKind]
  · have merged : deskKind "Desk" (some "v1") ["v1", "v2"] ∈ KindDefinition.mergeAll headedDesks.kinds :=
      List.mem_singleton_self _
    have wired : (deskKind "Desk" (some "v1") ["v1", "v2"]).wire (Table.lookup [] "Desk") =
        .ok ⟨"desks.dev", "Desk", "v1", false, ["v1", "v2"]⟩ := by rfl
    exact registeredHub?_desk (by rfl) merged wired
  · have merged : deskKind "Desk" (some "v2") ["v1", "v2"] ∈ KindDefinition.mergeAll passedDesks.kinds :=
      List.mem_singleton_self _
    have wired : (deskKind "Desk" (some "v2") ["v1", "v2"]).wire (Table.lookup [] "Desk") =
        .ok ⟨"desks.dev", "Desk", "v2", false, ["v1", "v2"]⟩ := by rfl
    exact registeredHub?_desk (by rfl) merged wired

end AppManifest

end ResourceKinds
