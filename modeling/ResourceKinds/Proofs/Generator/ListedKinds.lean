import ResourceKinds.Proofs.Generator.Hubs
import ResourceKinds.Proofs.Generator.ManifestRuns

namespace ResourceKinds

namespace KindDefinition

variable {kind : KindDefinition} {preferred : Option String} {graph : VersionGraph}

/-- If the kind itself prefers a version, it is one that it declares. -/
def DeclaresPreference (kind : KindDefinition) : Prop :=
  ∀ own, kind.preferredVersion = some own → own ∈ kind.versionNames

/-- The error names a version that the kind prefers and does not declare, and that a given preference overrides. -/
def Overridden (preferred : Fields String) (kind : KindDefinition) (error : Error) : Prop :=
  ∃ own, kind.preferredVersion = some own ∧ own ∉ kind.versionNames ∧ (preferred.lookup kind.kind).isSome = true ∧
    error = .versionGraph (.preferredVersionNotFound kind.group kind.kind own)

/-- Another preference changes nothing about a graph but its hub: the versions are checked before. -/
theorem wire_other (wires : kind.wire preferred = .ok graph) : ∃ last, ∀ other,
    kind.wire other = (kind.electHub last other).map fun hub => { graph with hub := hub } := by
  obtain ⟨first, rest, hub, declared, checked, _, rfl⟩ := exists_of_wire wires
  refine ⟨(first :: rest).getLast (List.cons_ne_nil _ _), fun other => ?_⟩
  rw [wire_cons declared, checked]
  cases kind.electHub ((first :: rest).getLast (List.cons_ne_nil _ _)) other <;> rfl

/-- A preference for a version that is not declared has to be overridden. -/
theorem isSome_of_undeclared {own : String} (wires : kind.wire preferred = .ok graph)
    (states : kind.preferredVersion = some own) (undeclared : own ∉ kind.versionNames) : preferred.isSome = true := by
  cases preferred with
  | some version => rfl
  | none =>
    obtain ⟨last, rewires⟩ := wire_other wires
    have prefers : kind.preference none = some own := states
    rw [rewires, electHub_of_undeclared prefers undeclared] at wires
    cases wires

end KindDefinition

open KindDefinition (mergeAll)
open ManifestCache (Holds)

namespace AppManifest

variable {manifest : AppManifest}

/-- Where the first declaration of each version can be built, a fresh view has what comes of it. -/
theorem schema?_of_buildable (buildable : manifest.Buildable) (group : String) {kind version : String}
    (declared : (manifest.kindVersion? kind version).isSome = true) : ∃ synthesized,
    (manifest.buildView group true []).value.1.schema? kind version = some (.ok synthesized) := by
  obtain ⟨first, found⟩ := Option.isSome_iff_exists.mp declared
  obtain ⟨synthesized, built⟩ := buildable kind version first found
  have outcome : manifest.first? kind version = some (.ok synthesized) := by
    rw [← kindVersion?_first, found, ← built]
    rfl
  refine ⟨synthesized, ?_⟩
  rw [buildView_schema?, viewed?, find?_of_first outcome]
  rfl

end AppManifest

namespace ListedKind

variable {manifest : AppManifest} {preferred : Fields String} {kind : KindDefinition} {view : ManifestView}
  {group : String}

/-- The kind is listed as its definition states it. -/
structure Matches (listed : ListedKind) (definition : ResourceDefinition) : Prop where
  kind : listed.kind = definition.kind
  names : listed.versions.map ListedVersion.name = definition.versions.map DefinedVersion.name
  selectable : listed.versions.map ListedVersion.selectableFields =
    definition.versions.map DefinedVersion.selectableFields
  conversion : listed.conversion = true ↔ definition.strategy? = some (.string "Webhook")

/-- What a kind is listed as in a view that is built afresh. -/
def alone (manifest : AppManifest) (group : String) (kind : KindDefinition) : Except Error ListedKind :=
  ((build (manifest.buildView group true []).value.1 kind).run.run .empty).value.1

theorem build_settled {holds : ManifestCache → Prop} : Settled holds (build view kind) := by
  unfold build
  exact Settled.ofGraph.bind fun _ => Settled.ofSchema.bind fun _ => Settled.pure

/-- A definition can be listed if its kind declares the version that it prefers. -/
theorem exists_matching {definition : ResourceDefinition} (buildable : manifest.Buildable)
    (inside : kind ∈ mergeAll manifest.kinds)
    (built : ResourceDefinition.alone preferred manifest kind = .ok definition)
    (declared : kind.DeclaresPreference) :
    ∃ listed, alone manifest group kind = .ok listed ∧ listed.Matches definition := by
  obtain ⟨graph, wires, describes⟩ := (ResourceDefinition.alone_eq_ok inside).mp built
  obtain ⟨last, rewires⟩ := KindDefinition.wire_other wires
  have preferences : ∀ own, kind.preference none = some own → own ∈ kind.versionNames := declared
  have wired : kind.wire none = .ok { graph with hub := (kind.preference none).getD last.name } := by
    rw [rewires, KindDefinition.electHub_of_declared last preferences]
    rfl
  have listable : ∀ version ∈ kind.versions, ∃ listed,
      ListedVersion.build (manifest.buildView group true []).value.1 kind.kind version = .ok listed ∧
        version.name = listed.name ∧ version.selectableFields = listed.selectableFields := by
    intro version inKind
    have known := AppManifest.isSome_kindVersion?_of_merged inside inKind
    obtain ⟨synthesized, viewed⟩ := AppManifest.schema?_of_buildable buildable group known
    refine ⟨⟨version.name, synthesized.schema.propertiesJson, version.selectableFields,
      version.admission⟩, ?_, rfl, rfl⟩
    unfold ListedVersion.build
    rw [viewed]
    rfl
  obtain ⟨versions, each⟩ := exists_forall₂_iff.mpr listable
  have made : kind.versions.mapM (ListedVersion.build (manifest.buildView group true []).value.1 kind.kind) =
    .ok versions := mapM_eq_ok.mpr (each.imp fun _ _ listed => listed.1)
  refine ⟨⟨kind.kind, kind.scope, graph.conversion, versions⟩, ?_, ?_⟩
  · unfold alone build
    refine run_bind_answer.trans (bind_eq_ok.mpr ⟨_, mapError_eq_ok.mpr wired, ?_⟩)
    exact run_bind_answer.trans (bind_eq_ok.mpr ⟨versions, mapError_eq_ok.mpr made, rfl⟩)
  · have names : kind.versionNames = versions.map ListedVersion.name :=
      map_eq_of_forall₂ (each.imp fun _ _ listed => listed.2.1)
    have selectable : kind.versions.map KindVersion.selectableFields = versions.map ListedVersion.selectableFields :=
      map_eq_of_forall₂ (each.imp fun _ _ listed => listed.2.2)
    refine ⟨?_, names.symm.trans describes.names_eq.symm, selectable.symm.trans describes.selectable_eq.symm, ?_⟩
    · rw [describes.rest]
    · rw [ResourceDefinition.strategy?_eq_webhook, describes.rest]

theorem alone_of_undeclared {graph : VersionGraph} {own : String}
    (wires : kind.wire (preferred.lookup kind.kind) = .ok graph) (states : kind.preferredVersion = some own)
    (undeclared : own ∉ kind.versionNames) :
    alone manifest group kind = .error (.versionGraph (.preferredVersionNotFound kind.group kind.kind own)) := by
  obtain ⟨last, rewires⟩ := KindDefinition.wire_other wires
  have prefers : kind.preference none = some own := states
  have fails : kind.wire none = .error (.preferredVersionNotFound kind.group kind.kind own) := by
    rw [rewires, KindDefinition.electHub_of_undeclared prefers undeclared]
    rfl
  unfold alone build
  rw [KindDefinition.wireLogged_of_error fails]
  rfl

/-- A kind with a definition is listed like it, or its own preference stands in the way. -/
theorem matching_or_overridden {definition : ResourceDefinition} (buildable : manifest.Buildable)
    (inside : kind ∈ mergeAll manifest.kinds)
    (built : ResourceDefinition.alone preferred manifest kind = .ok definition) (group : String) :
    (kind.DeclaresPreference ∧ ∃ listed, alone manifest group kind = .ok listed ∧ listed.Matches definition) ∨
    ¬ kind.DeclaresPreference ∧
      ∃ error, alone manifest group kind = .error error ∧ kind.Overridden preferred error := by
  by_cases declared : kind.DeclaresPreference
  · exact .inl ⟨declared, exists_matching buildable inside built declared⟩
  · obtain ⟨graph, wires, _⟩ := (ResourceDefinition.alone_eq_ok inside).mp built
    obtain ⟨own, states, undeclared⟩ : ∃ own, kind.preferredVersion = some own ∧ own ∉ kind.versionNames := by
      simpa [KindDefinition.DeclaresPreference] using declared
    have overridden := KindDefinition.isSome_of_undeclared wires states undeclared
    exact .inr ⟨declared, _, alone_of_undeclared wires states undeclared, own, states, undeclared, overridden, rfl⟩

end ListedKind

namespace ManifestDocument

variable {manifest : AppManifest} {cache : ManifestCache} {apiVersion : String}

/-- After the definitions of the manifest alone, its view is a fresh one. -/
theorem view_answer {group : String} (resolved : manifest.resolveGroup = .ok group) (holds : Holds [manifest] cache) :
    manifest.Buildable ∧
      ((view manifest).run.run cache).value.1 = .ok (manifest.buildView group true []).value.1 := by
  have own : ManifestCache.HoldsFor ([] ++ manifest :: []) manifest.appName cache := holds manifest.appName
  obtain ⟨buildable, knows⟩ := own.knows rfl
  obtain ⟨answered, _⟩ := ManifestCache.manifest_miss own.unviewed resolved
  rw [AppManifest.buildView_eq_fresh buildable group knows] at answered
  exact ⟨buildable, congrArg (Except.mapError Error.manifest) answered⟩

/-- The document lists the merged kinds one after the other. -/
theorem build_answer {group : String} (resolved : manifest.resolveGroup = .ok group) (holds : Holds [manifest] cache) :
    ((build apiVersion manifest).run.run cache).value.1 = do
      let kinds ← (mergeAll manifest.kinds).mapM (ListedKind.alone manifest group)
      return ⟨apiVersion, manifest.appName, group, kinds⟩ := by
  have settled : ∀ kind ∈ mergeAll manifest.kinds, Settled (fun _ => True)
    (ListedKind.build (manifest.buildView group true []).value.1 kind) := fun _ _ => ListedKind.build_settled
  have shape : build apiVersion manifest = do
      let view ← view manifest
      let kinds ← (mergeAll view.kinds).mapM (ListedKind.build view)
      return ⟨apiVersion, view.appName, view.group, kinds⟩ := rfl
  have listed (cache : ManifestCache) :
      (((mergeAll manifest.kinds).mapM (ListedKind.build (manifest.buildView group true []).value.1)).run.run
        cache).value.1 = (mergeAll manifest.kinds).mapM (ListedKind.alone manifest group) :=
    Settled.mapM_answer settled trivial trivial
  rw [shape, run_bind_answer, (view_answer resolved holds).2, ← listed]
  exact run_bind_answer

variable {encoding : Encoding} {preferred : Fields String} {files : List Artifact}

theorem holds_of_definitions
    (made : Gives .empty ((Generator.definitions encoding preferred).run [manifest]) files cache) :
    Holds [manifest] cache := by
  have kept := Generator.definitions_holds .empty ManifestCache.holds_empty files (congrArg Prod.fst made)
  rwa [congrArg Prod.snd made] at kept

/-- After the definitions of a manifest its document is made, and lists the same kinds, unless one of them prefers a
version that it does not declare, which only the given preferences have made up for. -/
theorem build_after_definitions (kinds : manifest.kinds ≠ [])
    (made : Gives .empty ((Generator.definitions encoding preferred).run [manifest]) files cache) :
    List.Forall₂ (Generator.Defines encoding preferred manifest) (mergeAll manifest.kinds) files ∧
    ((∃ document, ((build apiVersion manifest).run.run cache).value.1 = .ok document) ↔
      ∀ kind ∈ mergeAll manifest.kinds, kind.DeclaresPreference) ∧
    (∀ document, ((build apiVersion manifest).run.run cache).value.1 = .ok document →
      List.Forall₂ (fun kind listed => ∃ definition, ResourceDefinition.alone preferred manifest kind = .ok definition ∧
        listed.Matches definition) (mergeAll manifest.kinds) document.kinds) ∧
    ∀ error, ((build apiVersion manifest).run.run cache).value.1 = .error error →
      ∃ kind ∈ mergeAll manifest.kinds, kind.Overridden preferred error := by
  have alone : (Generator.definitions encoding preferred).alone manifest = .ok files := congrArg Prod.fst made
  have defined := Generator.definitions_alone_eq_ok.mp alone
  have holds := holds_of_definitions made
  obtain ⟨group, resolved⟩ := Generator.exists_group_of_defines kinds defined
  have each : ∀ kind ∈ mergeAll manifest.kinds,
      (kind.DeclaresPreference ∧ ∃ listed, ListedKind.alone manifest group kind = .ok listed ∧
        ∃ definition, ResourceDefinition.alone preferred manifest kind = .ok definition ∧ listed.Matches definition) ∨
      ¬ kind.DeclaresPreference ∧ ∃ error, ListedKind.alone manifest group kind = .error error ∧
        kind.Overridden preferred error := by
    intro kind inside
    obtain ⟨_, _, definition, built, _⟩ := (exists_of_forall₂ defined).2 kind inside
    refine (ListedKind.matching_or_overridden (view_answer resolved holds).1 inside built group).imp_left ?_
    rintro ⟨declared, listed, answered, alike⟩
    exact ⟨declared, listed, answered, definition, built, alike⟩
  obtain ⟨succeeds, listed, fails⟩ := mapM_outcome each
  rw [build_answer resolved holds]
  refine ⟨defined, Iff.trans ⟨?_, ?_⟩ succeeds, ?_, ?_⟩
  · rintro ⟨document, done⟩
    obtain ⟨kinds, answered, _⟩ := bind_eq_ok.mp done
    exact ⟨kinds, answered⟩
  · rintro ⟨kinds, answered⟩
    exact ⟨_, bind_eq_ok.mpr ⟨kinds, answered, rfl⟩⟩
  · intro document done
    obtain ⟨kinds, answered, same⟩ := bind_eq_ok.mp done
    obtain rfl := Except.ok.inj same
    exact listed kinds answered
  · intro error failed
    refine fails error ?_
    cases answered : (mergeAll manifest.kinds).mapM (ListedKind.alone manifest group) with
    | ok kinds =>
      rw [answered] at failed
      cases failed
    | error cause =>
      rw [answered] at failed
      exact congrArg Except.error (Except.error.inj failed)

end ManifestDocument

namespace AppManifest

/-- The definitions of desks of one kind, and the cache that they leave. -/
theorem definitions_desk {own : Option String} {names : List String} {preferred : Fields String} {graph : VersionGraph}
    (wired : (deskKind "Desk" own names).wire (preferred.lookup "Desk") = .ok graph) :
    ∃ cache, Gives .empty ((Generator.definitions .json preferred).run [desks [deskKind "Desk" own names]])
      [Generator.definitionFile .json (deskKind "Desk" own names) (deskDefinition (deskKind "Desk" own names) graph)]
      cache := by
  have resolved : (desks [deskKind "Desk" own names]).resolveGroup = .ok "desks.dev" := rfl
  have inside : deskKind "Desk" own names ∈ mergeAll [deskKind "Desk" own names] := List.mem_singleton_self _
  have alone : (Generator.definitions .json preferred).alone (desks [deskKind "Desk" own names]) = .ok _ :=
    Generator.definitions_alone_eq_ok.mpr (.cons ⟨_, alone_desk resolved inside wired, rfl⟩ .nil)
  exact ⟨_, Prod.ext alone rfl⟩

/-- Desks that prefer their first version. -/
def firstDesks : AppManifest := desks [deskKind "Desk" (some "v1") ["v1", "v2"]]

/-- The definition stores the version that is preferred for the desks, and the document is made as well. -/
theorem build_after_definitions_desks : firstDesks.kinds ≠ [] ∧ ∃ files cache,
    Gives .empty ((Generator.definitions .json [("Desk", "v2")]).run [firstDesks]) files cache ∧
    ∃ document, ((ManifestDocument.build "v1" firstDesks).run.run cache).value.1 = .ok document := by
  have kinds : firstDesks.kinds ≠ [] := List.cons_ne_nil _ _
  have merged : mergeAll firstDesks.kinds = [deskKind "Desk" (some "v1") ["v1", "v2"]] := rfl
  have wired : (deskKind "Desk" (some "v1") ["v1", "v2"]).wire (Table.lookup [("Desk", "v2")] "Desk") =
    .ok ⟨"desks.dev", "Desk", "v2", false, ["v1", "v2"]⟩ := rfl
  obtain ⟨cache, made⟩ := definitions_desk wired
  refine ⟨kinds, _, cache, made, (ManifestDocument.build_after_definitions kinds made).2.1.mpr ?_⟩
  intro kind inside own states
  rw [merged] at inside
  obtain rfl := List.mem_singleton.mp inside
  obtain rfl := Option.some.inj states
  decide

/-- Desks that prefer a version that they do not have. -/
def strayDesks : AppManifest := desks [deskKind "Desk" (some "v9") ["v1"]]

/-- The definition is made in the version that is preferred for the desks, and the document fails over the version that
they prefer themselves. -/
theorem document_of_stray_desks : ∃ cache,
    Gives .empty ((Generator.definitions .json [("Desk", "v1")]).run [strayDesks])
      [Generator.definitionFile .json (deskKind "Desk" (some "v9") ["v1"])
        (deskDefinition (deskKind "Desk" (some "v9") ["v1"]) ⟨"desks.dev", "Desk", "v1", false, ["v1"]⟩)] cache ∧
    ((ManifestDocument.build "v1" strayDesks).run.run cache).value.1 =
      .error (.versionGraph (.preferredVersionNotFound "desks.dev" "Desk" "v9")) := by
  have wired : (deskKind "Desk" (some "v9") ["v1"]).wire (Table.lookup [("Desk", "v1")] "Desk") =
    .ok ⟨"desks.dev", "Desk", "v1", false, ["v1"]⟩ := rfl
  obtain ⟨cache, made⟩ := definitions_desk wired
  have resolved : strayDesks.resolveGroup = .ok "desks.dev" := rfl
  have merged : mergeAll strayDesks.kinds = [deskKind "Desk" (some "v9") ["v1"]] := rfl
  have refused : ListedKind.alone strayDesks "desks.dev" (deskKind "Desk" (some "v9") ["v1"]) =
    .error (.versionGraph (.preferredVersionNotFound "desks.dev" "Desk" "v9")) :=
    ListedKind.alone_of_undeclared wired rfl (by decide)
  refine ⟨cache, made, ?_⟩
  rw [ManifestDocument.build_answer resolved (ManifestDocument.holds_of_definitions made), merged, List.mapM_cons,
    refused]
  rfl

end AppManifest

end ResourceKinds
