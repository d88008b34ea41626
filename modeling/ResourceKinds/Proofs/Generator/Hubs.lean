import ResourceKinds.Document.Routes
import ResourceKinds.Proofs.Conversion.Registration
import ResourceKinds.Proofs.Generator.KindByKind
import ResourceKinds.Proofs.Json.Retain

namespace ResourceKinds

open KindDefinition (mergeAll)

namespace ResourceDefinition.Describes

variable {manifest : AppManifest} {kind : KindDefinition} {graph : VersionGraph} {definition : ResourceDefinition}
  {preferred : Option String}

theorem names_eq (describes : Describes manifest kind graph definition) :
    definition.versions.map DefinedVersion.name = kind.versionNames :=
  (map_eq_of_forall₂ (describes.versions.imp fun _ _ version => version.takes.1)).symm

theorem selectable_eq (describes : Describes manifest kind graph definition) :
    definition.versions.map DefinedVersion.selectableFields = kind.versions.map KindVersion.selectableFields :=
  (map_eq_of_forall₂ (describes.versions.imp fun _ _ version => version.takes.2.1)).symm

theorem storage_eq (describes : Describes manifest kind graph definition) :
    ∀ defined ∈ definition.versions, defined.storage = decide (defined.name = graph.hub) := by
  intro defined inside
  obtain ⟨version, _, described⟩ := (exists_of_forall₂ describes.versions).1 defined inside
  exact described.takes.2.2

/-- Exactly one version is stored, and it is the hub. -/
theorem stored_eq (describes : Describes manifest kind graph definition) (wired : kind.wire preferred = .ok graph) :
    (definition.versions.filter (·.storage)).map DefinedVersion.name = [graph.hub] := by
  have distinct := (KindDefinition.agree_of_wire wired).1
  have hub := (KindDefinition.wired_of_wire wired).hub
  have stored : definition.versions.filter (·.storage) = definition.versions.filter (·.name == graph.hub) :=
    List.filter_congr fun defined inside => describes.storage_eq defined inside
  have once : kind.versionNames.count graph.hub = 1 := List.count_eq_one_of_mem distinct hub
  calc (definition.versions.filter (·.storage)).map DefinedVersion.name
    _ = (definition.versions.map DefinedVersion.name).filter (· == graph.hub) := by
      rw [stored, List.filter_map]
      rfl
    _ = [graph.hub] := by
      rw [describes.names_eq, List.filter_beq, once]
      rfl

end ResourceDefinition.Describes

namespace KindRoutes

variable {preferred : Fields String} {manifest : AppManifest} {routes : List KindRoutes}

theorem build_single : (build preferred [manifest]).value = (ofManifest preferred manifest).value := by
  unfold build
  rw [Logged.bind_value]
  cases (ofManifest preferred manifest).value with
  | error error => rfl
  | ok routes => exact congrArg Except.ok (List.append_nil routes)

/-- The list of one manifest has the graph of each of its kinds, in order. -/
theorem build_single_eq_ok : (build preferred [manifest]).value = .ok routes ↔
    List.Forall₂ (fun kind entry => ∃ graph, kind.wire (preferred.lookup kind.kind) = .ok graph ∧
      ⟨manifest.appName, graph⟩ = entry) (mergeAll manifest.kinds) routes := by
  rw [build_single, ofManifest, mapM_eq_ok, AppManifest.wire, List.forall₂_map_left_iff]
  simp only [map_eq_ok]

/-- There is a list of a manifest just if all of its kinds can be wired. -/
theorem exists_build_single : (∃ routes, (build preferred [manifest]).value = .ok routes) ↔
    ∀ kind ∈ mergeAll manifest.kinds, ∃ graph, kind.wire (preferred.lookup kind.kind) = .ok graph := by
  simp only [build_single_eq_ok, exists_forall₂_iff]
  refine forall₂_congr fun kind _ => ⟨?_, ?_⟩
  · rintro ⟨_, graph, wired, _⟩
    exact ⟨graph, wired⟩
  · rintro ⟨graph, wired⟩
    exact ⟨_, graph, wired, rfl⟩

end KindRoutes

namespace AppManifest

variable {manifest : AppManifest} {group : String} {kind : KindDefinition} {preferred : Fields String}

theorem mem_wire (resolved : manifest.resolveGroup = .ok group) (inside : kind ∈ mergeAll manifest.kinds)
    (result : Except VersionGraphError VersionGraph) :
    (kind.kind, result) ∈ manifest.wire preferred ↔ result = kind.wire (preferred.lookup kind.kind) := by
  constructor
  · intro listed
    obtain ⟨other, inMerged, same⟩ := List.mem_map.mp listed
    obtain ⟨named, rfl⟩ := Prod.mk.inj same
    rw [eq_of_named resolved inside inMerged named]
  · rintro rfl
    exact List.mem_map.mpr ⟨kind, inside, rfl⟩

end AppManifest

namespace ResourceDefinition

variable {manifest : AppManifest} {preferred : Fields String} {kind : KindDefinition} {definition : ResourceDefinition}

/-- How objects are converted, as the document of a definition states it. -/
def strategy? (definition : ResourceDefinition) : Option Json :=
  definition.toJson.at? [.member "spec", .member "conversion", .member "strategy"]

theorem strategy?_eq_webhook : definition.strategy? = some (.string "Webhook") ↔ definition.webhook = true := by
  have stated : definition.strategy? = some (.string (if definition.webhook then "Webhook" else "None")) := rfl
  rw [stated]
  cases definition.webhook <;> decide

/-- All that goes by the hub of a kind, or by its flag, goes by this graph. -/
structure SharesGraph (preferred : Fields String) (manifest : AppManifest) (kind : KindDefinition)
    (definition : ResourceDefinition) (graph : VersionGraph) : Prop where
  stored : (definition.versions.filter (·.storage)).map DefinedVersion.name = [graph.hub]
  wired : ∀ result, (kind.kind, result) ∈ manifest.wire preferred ↔ result = .ok graph
  registered : ∀ (registry : ConversionRegistry) (converters : Fields Converter),
    ((registry.registerManifest manifest preferred converters).run .empty).value.1.1.hub? kind.group kind.kind =
      some graph.hub
  listed : ∀ routes, (KindRoutes.build preferred [manifest]).value = .ok routes →
    ∀ entry, entry ∈ routes ∧ entry.graph.kind = kind.kind ↔ entry = ⟨manifest.appName, graph⟩
  webhook : definition.strategy? = some (.string "Webhook") ↔ graph.conversion = true
  flag : ∀ version ∈ kind.versions, version.conversion = graph.conversion

/-- Whoever elects the hub of a kind that has a definition elects the one version that the definition stores. Only the
list of routes may be missing, and then because some kind of the manifest cannot be wired at all. -/
theorem shares_hub (inside : kind ∈ mergeAll manifest.kinds) (built : alone preferred manifest kind = .ok definition) :
    (∃ graph, SharesGraph preferred manifest kind definition graph) ∧
    ((∃ routes, (KindRoutes.build preferred [manifest]).value = .ok routes) ↔
      ∀ other ∈ mergeAll manifest.kinds, ∃ graph, other.wire (preferred.lookup other.kind) = .ok graph) := by
  obtain ⟨group, resolved⟩ := exists_group_of_alone inside built
  obtain ⟨graph, wires, describes⟩ := (alone_eq_ok inside).mp built
  have named : graph.kind = kind.kind := (KindDefinition.wired_of_wire wires).kind
  refine ⟨⟨graph, ?_⟩, KindRoutes.exists_build_single⟩
  refine {
    stored := describes.stored_eq wires
    wired := fun result => wires ▸ AppManifest.mem_wire resolved inside result
    registered := fun registry converters => ?_
    listed := fun routes listed entry => ?_
    webhook := ?_
    flag := (KindDefinition.agree_of_wire wires).2 }
  · have found := (ConversionRegistry.graph?_registerManifest inside wires describes.exists_schema registry converters).2
    exact congrArg (Option.map VersionGraph.hub) found
  · have related := exists_of_forall₂ (KindRoutes.build_single_eq_ok.mp listed)
    constructor
    · rintro ⟨inRoutes, sameName⟩
      obtain ⟨other, inMerged, otherGraph, otherWires, rfl⟩ := related.1 entry inRoutes
      have otherNamed : otherGraph.kind = other.kind := (KindDefinition.wired_of_wire otherWires).kind
      obtain rfl := AppManifest.eq_of_named resolved inside inMerged (otherNamed.symm.trans sameName)
      obtain rfl := Except.ok.inj (wires.symm.trans otherWires)
      rfl
    · rintro rfl
      obtain ⟨entry, inRoutes, ownGraph, ownWires, rfl⟩ := related.2 kind inside
      obtain rfl := Except.ok.inj (wires.symm.trans ownWires)
      exact ⟨inRoutes, named⟩
  · rw [strategy?_eq_webhook, describes.rest]

end ResourceDefinition

namespace AppManifest

/-- The preferred version of the desks is stored, listed and converted through. -/
theorem shares_hub_desks :
    deskKind "Desk" none ["v1", "v2"] ∈ mergeAll wholeDesks.kinds ∧
    ResourceDefinition.alone [("Desk", "v1")] wholeDesks (deskKind "Desk" none ["v1", "v2"]) =
      .ok (deskDefinition (deskKind "Desk" none ["v1", "v2"]) ⟨"desks.dev", "Desk", "v1", false, ["v1", "v2"]⟩) ∧
    (∃ graph, ResourceDefinition.SharesGraph [("Desk", "v1")] wholeDesks (deskKind "Desk" none ["v1", "v2"])
      (deskDefinition (deskKind "Desk" none ["v1", "v2"]) ⟨"desks.dev", "Desk", "v1", false, ["v1", "v2"]⟩) graph) ∧
    ∃ routes, (KindRoutes.build [("Desk", "v1")] [wholeDesks]).value = .ok routes := by
  have merged : mergeAll wholeDesks.kinds = [deskKind "Desk" none ["v1", "v2"], deskKind "Lamp" none ["v1"]] := rfl
  have inside : deskKind "Desk" none ["v1", "v2"] ∈ mergeAll wholeDesks.kinds := by simp [merged]
  have resolved : wholeDesks.resolveGroup = .ok "desks.dev" := rfl
  have wired : (deskKind "Desk" none ["v1", "v2"]).wire (some "v1") =
    .ok ⟨"desks.dev", "Desk", "v1", false, ["v1", "v2"]⟩ := rfl
  have built : ResourceDefinition.alone [("Desk", "v1")] wholeDesks (deskKind "Desk" none ["v1", "v2"]) = _ :=
    alone_desk resolved inside wired
  obtain ⟨shares, lists⟩ := ResourceDefinition.shares_hub inside built
  refine ⟨inside, built, shares, lists.mpr ?_⟩
  simp only [merged, List.forall_mem_cons]
  exact ⟨⟨_, rfl⟩, ⟨_, rfl⟩, nofun⟩

/-- Desks, and lamps without versions. -/
def bareLamps : AppManifest := desks [deskKind "Desk" none ["v1"], deskKind "Lamp" none []]

/-- The desks have a definition, but there is no list of routes that could show their hub. -/
theorem desk_without_routes :
    deskKind "Desk" none ["v1"] ∈ mergeAll bareLamps.kinds ∧
    ResourceDefinition.alone [] bareLamps (deskKind "Desk" none ["v1"]) =
      .ok (deskDefinition (deskKind "Desk" none ["v1"]) ⟨"desks.dev", "Desk", "v1", false, ["v1"]⟩) ∧
    (KindRoutes.build [] [bareLamps]).value = .error (.noVersions "desks.dev" "Lamp") := by
  have merged : mergeAll bareLamps.kinds = [deskKind "Desk" none ["v1"], deskKind "Lamp" none []] := rfl
  have inside : deskKind "Desk" none ["v1"] ∈ mergeAll bareLamps.kinds := by simp [merged]
  have resolved : bareLamps.resolveGroup = .ok "desks.dev" := rfl
  have wired : (deskKind "Desk" none ["v1"]).wire none = .ok ⟨"desks.dev", "Desk", "v1", false, ["v1"]⟩ := rfl
  exact ⟨inside, alone_desk resolved inside wired, rfl⟩

end AppManifest

end ResourceKinds
