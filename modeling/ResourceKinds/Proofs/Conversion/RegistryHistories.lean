import ResourceKinds.Proofs.Conversion.Registration

namespace ResourceKinds

/-- Each version of the graph has a codec that prunes by a schema. -/
def KindConversion.IsWhole (entry : KindConversion) : Prop :=
  ∀ version ∈ entry.graph.versions, ∃ schema, entry.codecs.lookup version = some (.pruning schema)

namespace ConversionRegistry

section Manifest

variable {manifest : AppManifest} {answers : String → String → Except Error Synthesized} {preferred : Fields String}
  {converters : Fields Converter} {kind : KindDefinition} {entry : KindConversion}

/-- The versions of the graph are those of the kind, so each has the codec of the schema that is answered for it. -/
theorem Prepared.codec_of_version (prepared : Prepared answers preferred converters kind entry) {version : String}
    (inside : version ∈ entry.graph.versions) :
    ∃ synthesized, answers kind.kind version = .ok synthesized ∧
      entry.codecs.lookup version = some (.pruning synthesized.schema) := by
  rw [(KindDefinition.wired_of_wire prepared.wired).versions] at inside
  obtain ⟨declared, among, rfl⟩ := List.mem_map.mp inside
  exact prepared.pruning declared among

theorem Prepared.isWhole (prepared : Prepared answers preferred converters kind entry) : entry.IsWhole := by
  intro version inside
  obtain ⟨synthesized, _, prunes⟩ := prepared.codec_of_version inside
  exact ⟨synthesized.schema, prunes⟩

/-- The report lists every kind of the manifest exactly once, merged and in order, as registered or as failed. A
registered kind has the graph that it is wired to, and for each version of it the codec of the schema that the
cache answers. Of a failed kind the registry holds what it held before, and likewise of every kind that the
manifest does not have. -/
theorem registerManifest_whole_or_not (registry : ConversionRegistry) (cache : ManifestCache) (manifest : AppManifest)
    (preferred : Fields String) (converters : Fields Converter) :
    let run := ((registry.registerManifest manifest preferred converters).run cache).value
    let after := run.1.1
    let report := run.1.2
    let kinds := KindDefinition.mergeAll manifest.kinds
    KindDefinition.Apart kinds ∧
    (∀ group name, (∃ kind ∈ kinds, kind.group = group ∧ kind.kind = name) ↔
      ∃ definition ∈ manifest.kinds, definition.group = group ∧ definition.kind = name) ∧
    ∃ outcomes : List (KindDefinition × Option Error), outcomes.map Prod.fst = kinds ∧
      report.registered =
        (outcomes.filterMap fun outcome => if outcome.2.isNone then some outcome.1.kind else none) ∧
      report.failed = (outcomes.filterMap fun outcome => outcome.2.map (outcome.1.kind, ·)) ∧
      (∀ kind, (kind, none) ∈ outcomes → ∃ entry, after.find? kind.group kind.kind = some entry ∧
        kind.wire (preferred.lookup kind.kind) = .ok entry.graph ∧
        (∀ version ∈ entry.graph.versions, ∃ synthesized, cache.answer manifest kind.kind version = .ok synthesized ∧
          entry.codecs.lookup version = some (.pruning synthesized.schema)) ∧
        entry.converter = (converters.lookup kind.kind).getD .restamp) ∧
      (∀ kind error, (kind, some error) ∈ outcomes →
        after.find? kind.group kind.kind = registry.find? kind.group kind.kind ∧
        Refused (cache.answer manifest) preferred kind error) ∧
      ∀ group name, (∀ kind ∈ kinds, ¬ (kind.group = group ∧ kind.kind = name)) →
        after.find? group name = registry.find? group name := by
  have own : ManifestCache.Answers manifest (cache.answer manifest) cache := fun _ _ => rfl
  obtain ⟨⟨outcomes, listed, registration⟩, _⟩ := registerManifest_ensures preferred converters registry cache own
  refine ⟨KindDefinition.apart_mergeAll _, fun _ _ => KindDefinition.exists_named_mergeAll, outcomes, listed,
    registration.registered, registration.failed, fun kind among => ?_, fun kind error among => ?_,
    fun group name absent => ?_⟩
  · obtain ⟨entry, prepared, found⟩ := registration.whole kind among
    exact ⟨entry, found, prepared.wired, fun version inside => prepared.codec_of_version inside, prepared.converter⟩
  · exact (registration.refused kind error among).symm
  · exact registration.others group name fun outcome among => absent _ (listed ▸ List.mem_map_of_mem among)

end Manifest

/-- A manifest that is to be registered. -/
structure Request where
  manifest : AppManifest
  preferred : Fields String
  converters : Fields Converter

/-- Registers one manifest after the other. -/
def registerEach : List Request → ConversionRegistry → CacheM (ConversionRegistry × List RegistrationReport)
  | [], registry => return (registry, [])
  | request :: rest, registry => do
    let (registry, report) ← registry.registerManifest request.manifest request.preferred request.converters
    let (registry, reports) ← registerEach rest registry
    return (registry, report :: reports)

/-- Every registered kind is whole. -/
def IsWhole (registry : ConversionRegistry) : Prop :=
  ∀ group kind entry, registry.find? group kind = some entry → entry.IsWhole

theorem Registration.isWhole {answers : String → String → Except Error Synthesized} {preferred : Fields String}
    {converters : Fields Converter} {before after : ConversionRegistry} {report : RegistrationReport}
    {outcomes : List (KindDefinition × Option Error)}
    (registration : Registration answers preferred converters before after report outcomes) (whole : before.IsWhole) :
    after.IsWhole := by
  intro group name entry found
  rcases registration.prepared_or_before found with ⟨_, _, prepared⟩ | earlier
  · exact prepared.isWhole
  · exact whole group name entry earlier

/-- Registrations and repeated registrations, on whatever cache, leave a registry of whole kinds. -/
theorem registerEach_isWhole (requests : List Request) {registry : ConversionRegistry} (whole : registry.IsWhole)
    (cache : ManifestCache) : ((registerEach requests registry).run cache).value.1.1.IsWhole := by
  suffices Ensures (fun _ => True) (registerEach requests registry) fun answer _ => answer.1.IsWhole from
    this cache trivial
  induction requests generalizing registry with
  | nil => exact Ensures.pure fun _ _ => whole
  | cons request rest ih =>
    have step : Ensures (fun _ => True)
        (registry.registerManifest request.manifest request.preferred request.converters) fun answer _ =>
          answer.1.IsWhole ∧ True := by
      intro cache _
      have own : ManifestCache.Answers request.manifest (cache.answer request.manifest) cache := fun _ _ => rfl
      obtain ⟨⟨_, _, registration⟩, _⟩ :=
        registerManifest_ensures request.preferred request.converters registry cache own
      exact ⟨registration.isWhole whole, trivial⟩
    refine step.bind fun answer => Ensures.given fun whole => ?_
    exact (ih whole).bind fun answer => Ensures.pure fun _ holds => holds

end ConversionRegistry

end ResourceKinds
