import ResourceKinds.Proofs.Conversion.EdgeGraphs
import ResourceKinds.Proofs.Conversion.Hops
import ResourceKinds.Proofs.Conversion.Registration

namespace ResourceKinds

namespace VersionGraph

variable {graph : VersionGraph} {source target : String}

/-- Hops from one version to another: none within a version, one to the hub or from it, and otherwise two that meet
at the hub. -/
inductive Joins (graph : VersionGraph) : String → String → List Route → Prop
  | stay (version) : Joins graph version version []
  | direct {route} (listed : route ∈ graph.routes) : Joins graph route.source route.target [route]
  | through {up down} (first : up ∈ graph.routes) (second : down ∈ graph.routes) (into : up.target = graph.hub)
      (out : down.source = graph.hub) (apart : up.source ≠ down.target) :
      Joins graph up.source down.target [up, down]

/-- Each of two declared versions is the hub or has the two routes that join it with the hub. -/
theorem exists_joins (central : graph.hub ∈ graph.versions) (declared : source ∈ graph.versions)
    (wanted : target ∈ graph.versions) :
    ∃ hops, graph.path? source target = some hops ∧ graph.Joins source target hops := by
  have up {version : String} (inside : version ∈ graph.versions) (other : version ≠ graph.hub) :
      ⟨version, graph.hub, .toHub⟩ ∈ graph.routes := mem_routes.mpr ⟨version, inside, other, .inl rfl⟩
  have down {version : String} (inside : version ∈ graph.versions) (other : version ≠ graph.hub) :
      ⟨graph.hub, version, .fromHub⟩ ∈ graph.routes := mem_routes.mpr ⟨version, inside, other, .inr rfl⟩
  by_cases same : source = target
  · subst same
    exact ⟨[], path?_self declared, .stay source⟩
  by_cases targetHub : target = graph.hub
  · subst targetHub
    exact ⟨_, path?_toHub declared central same, .direct (up declared same)⟩
  by_cases sourceHub : source = graph.hub
  · subst sourceHub
    exact ⟨_, path?_fromHub wanted central targetHub, .direct (down wanted targetHub)⟩
  exact ⟨_, path?_spokes declared wanted central same sourceHub targetHub,
    .through (up declared sourceHub) (down wanted targetHub) rfl rfl same⟩

theorem path?_eq_none (central : graph.hub ∈ graph.versions) :
    graph.path? source target = none ↔ source ∉ graph.versions ∨ target ∉ graph.versions := by
  constructor
  · intro nowhere
    by_contra declared
    rw [not_or, not_not, not_not] at declared
    obtain ⟨hops, leads, _⟩ := exists_joins central declared.1 declared.2
    rw [nowhere] at leads
    cases leads
  · intro absent
    rcases absent with absent | absent <;> simp [path?, contains, absent]

theorem joins_of_path? (central : graph.hub ∈ graph.versions) {hops : List Route}
    (leads : graph.path? source target = some hops) : graph.Joins source target hops := by
  have declared : ¬ (source ∉ graph.versions ∨ target ∉ graph.versions) := fun absent => by
    rw [(path?_eq_none central).mpr absent] at leads
    cases leads
  rw [not_or, not_not, not_not] at declared
  obtain ⟨others, leadsToo, joins⟩ := exists_joins central declared.1 declared.2
  obtain rfl := Option.some.inj (leadsToo.symm.trans leads)
  exact joins

theorem Joins.mem_routes {hops : List Route} (joins : graph.Joins source target hops) :
    ∀ hop ∈ hops, hop ∈ graph.routes := by
  cases joins with
  | stay => exact nofun
  | direct listed => exact List.forall_mem_singleton.mpr listed
  | through first second => exact List.forall_mem_cons.mpr ⟨first, List.forall_mem_singleton.mpr second⟩

/-- The direction of a route says which of its ends is the hub. -/
theorem direction_of_mem {route : Route} (listed : route ∈ graph.routes) :
    (route.direction = .toHub ↔ route.target = graph.hub) ∧
      (route.direction = .fromHub ↔ route.source = graph.hub) := by
  obtain ⟨version, _, other, rfl | rfl⟩ := VersionGraph.mem_routes.mp listed
  · simp [other]
  · simp [other]

end VersionGraph

namespace ConversionRegistry

/-- Registries that come of registering wired graphs and manifests, in any order and as often as one likes. -/
inductive Built : ConversionRegistry → Prop
  | empty : Built .empty
  | register {registry definition preferred graph} (built : Built registry)
      (wired : KindDefinition.wire definition preferred = .ok graph) (codecs : Fields Codec) (converter : Converter) :
      Built (registry.register ⟨graph, codecs, converter⟩)
  | registerManifest {registry} (built : Built registry) (manifest : AppManifest) (preferred : Fields String)
      (converters : Fields Converter) (cache : ManifestCache) :
      Built ((registry.registerManifest manifest preferred converters).run cache).value.1.1

/-- Every registered kind has the graph that some definition is wired to. -/
def IsWired (registry : ConversionRegistry) : Prop :=
  ∀ group kind entry, registry.find? group kind = some entry →
    ∃ definition preferred, KindDefinition.wire definition preferred = .ok entry.graph

theorem Registration.isWired {answers : String → String → Except Error Synthesized} {preferred : Fields String}
    {converters : Fields Converter} {before after : ConversionRegistry} {report : RegistrationReport}
    {outcomes : List (KindDefinition × Option Error)}
    (registration : Registration answers preferred converters before after report outcomes) (wired : before.IsWired) :
    after.IsWired := by
  intro group name entry found
  rcases registration.prepared_or_before found with ⟨kind, _, prepared⟩ | earlier
  · exact ⟨kind, _, prepared.wired⟩
  · exact wired group name entry earlier

theorem Built.isWired {registry : ConversionRegistry} (built : registry.Built) : registry.IsWired := by
  induction built with
  | empty => exact nofun
  | register _ wired codecs converter ih =>
    intro group name entry found
    rw [find?_register] at found
    split at found
    · obtain rfl := Option.some.inj found
      exact ⟨_, _, wired⟩
    · exact ih group name entry found
  | @registerManifest registry _ manifest preferred converters cache ih =>
    have own : ManifestCache.Answers manifest (cache.answer manifest) cache := fun _ _ => rfl
    obtain ⟨⟨_, _, registration⟩, _⟩ := registerManifest_ensures preferred converters registry cache own
    exact registration.isWired ih

/-- What may become of converting an object into a version. -/
inductive Outcome (registry : ConversionRegistry) (object : Json) (version : String) : Conversion → Prop
  | untyped {error} (fails : TypeMeta.ofObject object = .error error) :
      Outcome registry object version ⟨.error error, []⟩
  | unregistered {type} (typed : TypeMeta.ofObject object = .ok type)
      (absent : registry.find? type.group type.kind = none) :
      Outcome registry object version ⟨.error (.notRegistered type.group type.kind), []⟩
  | undeclared {type entry missing} (typed : TypeMeta.ofObject object = .ok type)
      (found : registry.find? type.group type.kind = some entry) (either : missing = type.version ∨ missing = version)
      (absent : missing ∉ entry.graph.versions) :
      Outcome registry object version ⟨.error (.unknownVersion type.kind missing), []⟩
  | along {type entry hops} (typed : TypeMeta.ofObject object = .ok type)
      (found : registry.find? type.group type.kind = some entry)
      (leads : entry.graph.path? type.version version = some hops)
      (joins : entry.graph.Joins type.version version hops) :
      Outcome registry object version (travel entry hops type object)

/-- No other outcome is left: between two declared versions there are hops. -/
theorem Built.outcome {registry : ConversionRegistry} (built : registry.Built) (object : Json) (version : String) :
    registry.Outcome object version (registry.convert object version) := by
  cases typed : TypeMeta.ofObject object with
  | error error =>
    simp only [convert, typed]
    exact .untyped typed
  | ok type =>
    cases found : registry.find? type.group type.kind with
    | none =>
      simp only [convert, typed, found]
      exact .unregistered typed found
    | some entry =>
      by_cases declared : type.version ∈ entry.graph.versions
      · by_cases wanted : version ∈ entry.graph.versions
        · obtain ⟨definition, preferred, wired⟩ := built.isWired _ _ entry found
          have isWired := KindDefinition.wired_of_wire wired
          have central : entry.graph.hub ∈ entry.graph.versions := isWired.versions ▸ isWired.hub
          obtain ⟨hops, leads, joins⟩ := VersionGraph.exists_joins central declared wanted
          rw [convert_eq_travel typed found declared wanted leads]
          exact .along typed found leads joins
        · have refused : registry.convert object version = ⟨.error (.unknownVersion type.kind version), []⟩ := by
            simp [convert, typed, found, VersionGraph.contains, declared, wanted]
          rw [refused]
          exact .undeclared typed found (.inr rfl) wanted
      · have refused : registry.convert object version = ⟨.error (.unknownVersion type.kind type.version), []⟩ := by
          simp [convert, typed, found, VersionGraph.contains, declared]
        rw [refused]
        exact .undeclared typed found (.inl rfl) declared

end ConversionRegistry

/-- Of a kind that could be wired, every version apart from the hub has its route to the hub and its route from it, in
the order of declaration. There is a path between two names unless one of them is not declared, and it goes by way of
the hub along listed routes. So a registry always converts along hops if the object's version and the wanted one are
declared, and otherwise says which of them is not. -/
theorem VersionGraph.joined_through_hub :
    (∀ (definition : KindDefinition) (preferred : Option String) (graph : VersionGraph),
      definition.wire preferred = .ok graph →
      graph.versions = definition.versionNames ∧ graph.versions.Nodup ∧ graph.hub ∈ graph.versions ∧
      graph.routes = graph.edgeGraph.routes graph.versions ∧
      graph.edgeGraph.routes graph.versions = ((graph.versions.filter (· ≠ graph.hub)).flatMap fun version =>
        [⟨version, graph.hub, .toHub⟩, ⟨graph.hub, version, .fromHub⟩]) ∧
      ∀ source target, graph.path? source target = graph.edgeGraph.path? graph.hub source target ∧
        (graph.path? source target = none ↔ source ∉ graph.versions ∨ target ∉ graph.versions) ∧
        ∀ hops, graph.path? source target = some hops → graph.Joins source target hops ∧
          ∀ hop ∈ hops, hop ∈ graph.routes ∧ (hop.direction = .toHub ↔ hop.target = graph.hub) ∧
            (hop.direction = .fromHub ↔ hop.source = graph.hub)) ∧
    ∀ registry : ConversionRegistry, registry.Built → ∀ object version,
      registry.Outcome object version (registry.convert object version) := by
  refine ⟨fun definition preferred graph wired => ?_, fun registry built => built.outcome⟩
  have isWired := KindDefinition.wired_of_wire wired
  have distinct : graph.versions.Nodup := isWired.versions ▸ (KindDefinition.agree_of_wire wired).1
  have central : graph.hub ∈ graph.versions := isWired.versions ▸ isWired.hub
  have sorted := routes_edgeGraph distinct central
  refine ⟨isWired.versions, distinct, central, sorted.symm, sorted, fun source target => ?_⟩
  refine ⟨(path?_edgeGraph distinct central source target).symm, path?_eq_none central, fun hops leads => ?_⟩
  have joins := joins_of_path? central leads
  exact ⟨joins, fun hop among => ⟨joins.mem_routes hop among, direction_of_mem (joins.mem_routes hop among)⟩⟩

/-- A parcel of the last version goes to the first one over the one in the middle. -/
theorem VersionGraph.joined_through_hub_parcels :
    parcels.wire none = .ok parcelGraph ∧
    parcelGraph.Joins "v3" "v1" [⟨"v3", "v2", .toHub⟩, ⟨"v2", "v1", .fromHub⟩] ∧
    parcelGraph.edgeGraph.routes ["v1", "v2", "v3"] =
      [⟨"v1", "v2", .toHub⟩, ⟨"v2", "v1", .fromHub⟩, ⟨"v3", "v2", .toHub⟩, ⟨"v2", "v3", .fromHub⟩] ∧
    (ConversionRegistry.empty.register parcelEntry).Outcome (parcel "v3") "v1"
      ((ConversionRegistry.empty.register parcelEntry).convert (parcel "v3") "v1") := by
  have wired : parcels.wire none = .ok parcelGraph := by cbv
  obtain ⟨_, _, _, _, sorted, paths⟩ := joined_through_hub.1 parcels none parcelGraph wired
  obtain ⟨_, _, hops⟩ := paths "v3" "v1"
  have leads : parcelGraph.path? "v3" "v1" = some [⟨"v3", "v2", .toHub⟩, ⟨"v2", "v1", .fromHub⟩] := by decide
  exact ⟨wired, (hops _ leads).1, sorted.trans (by decide),
    joined_through_hub.2 _ (.register .empty wired _ _) (parcel "v3") "v1"⟩

end ResourceKinds
