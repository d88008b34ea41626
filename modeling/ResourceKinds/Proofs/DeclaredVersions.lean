import ResourceKinds.Proofs.Conversion.Registration
import ResourceKinds.Proofs.Generator.KindByKind

namespace ResourceKinds

open KindDefinition (mergeAll)

namespace KindDefinition

/-- Among versions with names of their own a name selects one. -/
theorem filter_versions {kind : KindDefinition} (distinct : kind.versionNames.Nodup) {version : KindVersion}
    (declared : version ∈ kind.versions) :
    kind.versions.filter (fun other => other.name = version.name) = [version] := by
  unfold versionNames at distinct
  obtain ⟨before, after, whole⟩ := List.append_of_mem declared
  rw [whole, List.map_append, List.map_cons, List.nodup_middle, List.nodup_cons, List.mem_append, not_or] at distinct
  obtain ⟨⟨notBefore, notAfter⟩, -⟩ := distinct
  have others {versions : List KindVersion} (absent : version.name ∉ versions.map KindVersion.name) :
      versions.filter (fun other => other.name = version.name) = [] := by
    refine List.filter_eq_nil_iff.mpr fun other inside named => absent ?_
    exact of_decide_eq_true named ▸ List.mem_map_of_mem inside
  rw [whole, List.filter_append, List.filter_cons_of_pos (by simp), others notBefore, others notAfter, List.nil_append]

end KindDefinition

namespace AppManifest

variable {manifest : AppManifest} {group : String} (resolved : manifest.resolveGroup = .ok group)
  {kind : KindDefinition} (inside : kind ∈ mergeAll manifest.kinds)

include resolved inside

/-- The declarations under the name of a merged kind are its versions: no other group has a kind of this name. -/
theorem versionsOf_of_merged : manifest.versionsOf kind.kind = kind.versions := by
  have named : kind.name = (group, kind.kind) := Prod.ext (group_of_merged resolved inside).1 rfl
  rw [versionsOf_eq resolved, KindDefinition.versions_of_merged inside named]

variable (distinct : kind.versionNames.Nodup) {version : KindVersion} (declared : version ∈ kind.versions)

include distinct declared

theorem kindVersion?_of_merged : manifest.kindVersion? kind.kind version.name = some version := by
  rw [kindVersion?_eq_versionsOf, versionsOf_of_merged resolved inside, ← List.head?_filter,
    KindDefinition.filter_versions distinct declared]
  rfl

/-- The only outcome of the version is that of the declaration. -/
theorem outcomes_of_merged :
    manifest.outcomes kind.kind version.name = [version.schema.synthesize kind.kind version.name] := by
  rw [outcomes_eq_versionsOf, versionsOf_of_merged resolved inside, KindDefinition.filter_versions distinct declared]
  rfl

end AppManifest

namespace ManifestCache

/-- The cache answers for the versions of the kind what comes of their own trees. -/
def OwnSchemas (manifest : AppManifest) (kind : KindDefinition) (cache : ManifestCache) : Prop :=
  ∀ version ∈ kind.versions, cache.answer manifest kind.kind version.name =
    (version.schema.synthesize kind.kind version.name).mapError .schema

/-- A cache that has been asked for nothing but the manifest, in whatever order for schemas and views. -/
theorem ownSchemas_of_runAll {manifest : AppManifest} {group : String} (resolved : manifest.resolveGroup = .ok group)
    {kind : KindDefinition} (inside : kind ∈ mergeAll manifest.kinds) (distinct : kind.versionNames.Nodup)
    {calls : List CacheCall} (about : ∀ call ∈ calls, call.manifest = manifest) :
    OwnSchemas manifest kind ((CacheHistory.runAll calls).run .empty).value.2 := by
  intro version declared
  have outcomes := AppManifest.outcomes_of_merged resolved inside distinct declared
  have first : manifest.first? kind.kind version.name = some (version.schema.synthesize kind.kind version.name) := by
    rw [AppManifest.first?, outcomes]
    rfl
  have viewed : manifest.viewed? kind.kind version.name = some (version.schema.synthesize kind.kind version.name) := by
    rw [AppManifest.viewed?, outcomes]
    cases version.schema.synthesize kind.kind version.name <;> rfl
  have stage := CacheHistory.stage_of_runAll resolved about
  by_cases seen : .view manifest true ∈ calls
  · exact (stage.1 seen).answer resolved (AppManifest.later?_eq_first first viewed)
  · exact (stage.2 seen).answer resolved first

end ManifestCache

/-- What a definition says about a version into which it puts a schema: all but the schema and its subresources is
taken from the version itself. -/
def DefinedVersion.Embeds (kind hub : String) (version : KindVersion) (synthesized : Synthesized)
    (defined : DefinedVersion) : Prop :=
  ∃ schema, synthesized.schema.checkSelectable kind version.name version.selectableFields = .ok () ∧
    Json.restateSchema synthesized.schema.toJson = .ok schema ∧
    defined = ⟨version.name, version.served, version.name = hub, schema,
      synthesized.subresources.contains statusProperty, version.selectableFields, version.printerColumns⟩

/-- Each version in a definition is one declaration, with the schema of that declaration's own tree. -/
structure ResourceDefinition.Declares (kind : KindDefinition) (hub : String) (definition : ResourceDefinition) :
    Prop where
  versions : List.Forall₂ (fun version defined =>
      ∃ synthesized, version.schema.synthesize kind.kind version.name = .ok synthesized ∧
        DefinedVersion.Embeds kind.kind hub version synthesized defined) kind.versions definition.versions
  webhook : ∀ version ∈ kind.versions, definition.webhook = version.conversion

namespace ResourceDefinition

open ManifestCache (Answers)

variable {manifest : AppManifest} {kind : KindDefinition}

theorem buildVersion_leads (manifest : AppManifest) (answers : String → String → Except Error Synthesized)
    (name hub : String) (version : KindVersion) :
    Leads (Answers manifest answers) (buildVersion manifest name hub version) fun defined cache =>
      (∃ synthesized, answers name version.name = .ok synthesized ∧
        DefinedVersion.Embeds name hub version synthesized defined) ∧ Answers manifest answers cache := by
  have asked : Leads (Answers manifest answers)
      (ExceptT.mk (ManifestCache.kindVersionSchema manifest name version.name)) fun synthesized cache =>
        answers name version.name = .ok synthesized ∧ Answers manifest answers cache := by
    intro cache same synthesized answered
    obtain ⟨own, later⟩ := ManifestCache.kindVersionSchema_answers name version.name cache same
    exact ⟨own.symm.trans answered, later⟩
  unfold buildVersion
  refine asked.bind fun synthesized => Leads.given fun answered => ?_
  refine Leads.ofSchema.bind fun _ => Leads.given fun selectable => ?_
  refine Leads.ofExcept.bind fun schema => Leads.given fun stated => ?_
  exact Leads.pure fun cache same => ⟨⟨synthesized, answered, schema, selectable, mapError_eq_ok.mp stated, rfl⟩, same⟩

/-- A definition takes its schemas from the answers of the cache. -/
theorem build_leads (answers : String → String → Except Error Synthesized) (preferred : Fields String)
    (kind : KindDefinition) : Leads (Answers manifest answers) (build preferred manifest kind) fun definition _ =>
      ∃ graph, kind.wire (preferred.lookup kind.kind) = .ok graph ∧ definition.webhook = graph.conversion ∧
        List.Forall₂ (fun version defined => ∃ synthesized, answers kind.kind version.name = .ok synthesized ∧
          DefinedVersion.Embeds kind.kind graph.hub version synthesized defined) kind.versions definition.versions := by
  unfold build
  refine Leads.ofGraph.bind fun graph => Leads.given fun wired => ?_
  have each := Leads.mapM kind.versions fun (_ : List KindVersion) version _ _ =>
    buildVersion_leads manifest answers kind.kind graph.hub version
  refine each.bind fun versions => Leads.given fun aligned => ?_
  exact Leads.pure fun _ _ => ⟨graph, wired, rfl, aligned.forall₂⟩

theorem declares_of_build {preferred : Fields String} {cache : ManifestCache} {definition : ResourceDefinition}
    (own : ManifestCache.OwnSchemas manifest kind cache)
    (built : ((build preferred manifest kind).run.run cache).value.1 = .ok definition) :
    ∃ graph, kind.wire (preferred.lookup kind.kind) = .ok graph ∧ Declares kind graph.hub definition := by
  have same : Answers manifest (cache.answer manifest) cache := fun _ _ => rfl
  obtain ⟨graph, wired, webhook, embedded⟩ := build_leads _ preferred kind cache same definition built
  refine ⟨graph, wired, ?_, fun version declared => ?_⟩
  · refine (forall₂_congr_of_mem fun version declared defined => ?_).mp embedded
    rw [own version declared]
    simp only [mapError_eq_ok]
  · rw [webhook, (KindDefinition.agree_of_wire wired).2 version declared]

end ResourceDefinition

/-- Each version of a registered kind is converted by the schema of its own declaration, and its flag is that of the
graph. -/
def KindConversion.Declares (kind : KindDefinition) (entry : KindConversion) : Prop :=
  ∀ version ∈ kind.versions, version.conversion = entry.graph.conversion ∧
    ∃ synthesized, version.schema.synthesize kind.kind version.name = .ok synthesized ∧
      entry.codec version.name = .pruning synthesized.schema

theorem ConversionRegistry.declares_of_registered {manifest : AppManifest} {group : String}
    (resolved : manifest.resolveGroup = .ok group) {kind : KindDefinition} (inside : kind ∈ mergeAll manifest.kinds)
    {cache : ManifestCache} (own : ManifestCache.OwnSchemas manifest kind cache) {preferred : Fields String}
    {converters : Fields Converter} {initial registry : ConversionRegistry} {report : RegistrationReport}
    (registers : ((initial.registerManifest manifest preferred converters).run cache).value.1 = (registry, report))
    (registered : kind.kind ∈ report.registered) :
    ∃ entry, registry.find? kind.group kind.kind = some entry ∧ entry.Declares kind := by
  have same : ManifestCache.Answers manifest (cache.answer manifest) cache := fun _ _ => rfl
  obtain ⟨other, inMerged, named, entry, prepared, found⟩ := exists_prepared_of_answers same registers registered
  obtain rfl := AppManifest.eq_of_named resolved inside inMerged named
  refine ⟨entry, found, fun version declared => ?_⟩
  obtain ⟨synthesized, answered, prunes⟩ := prepared.pruning version declared
  rw [own version declared, mapError_eq_ok] at answered
  refine ⟨(KindDefinition.agree_of_wire prepared.wired).2 version declared, synthesized, answered, ?_⟩
  rw [KindConversion.codec, prunes, Option.getD_some]

namespace AppManifest

open ManifestCache CacheHistory

/-- In a manifest with a group, a lookup by the names of a version of a merged kind that can be wired finds this very
version. So wherever a cache that has been asked for this manifest alone has its schemas embedded, in a definition or
for conversion, the schema is that of the version whose fields, columns and flags stand beside it. What is kept for
another manifest of the same app name would take the place of these schemas. -/
theorem embeds_declared {manifest : AppManifest} {group : String} (resolved : manifest.resolveGroup = .ok group)
    {kind : KindDefinition} (inside : kind ∈ mergeAll manifest.kinds) {chosen : Option String} {graph : VersionGraph}
    (wired : kind.wire chosen = .ok graph) :
    (∀ version ∈ kind.versions, manifest.kindVersion? kind.kind version.name = some version) ∧
    ∀ calls : List CacheCall, (∀ call ∈ calls, call.manifest = manifest) →
      let cache := ((runAll calls).run .empty).value.2
      (∀ version ∈ kind.versions, ((kindVersionSchema manifest kind.kind version.name).run cache).value.1 =
        (version.schema.synthesize kind.kind version.name).mapError .schema) ∧
      (∀ preferred definition,
        ((ResourceDefinition.build preferred manifest kind).run.run cache).value.1 = .ok definition →
        ∃ graph, kind.wire (preferred.lookup kind.kind) = .ok graph ∧ definition.Declares kind graph.hub) ∧
      ∀ (initial registry : ConversionRegistry) preferred converters report,
        ((initial.registerManifest manifest preferred converters).run cache).value.1 = (registry, report) →
        kind.kind ∈ report.registered →
        ∃ entry, registry.find? kind.group kind.kind = some entry ∧ entry.Declares kind := by
  have distinct := (KindDefinition.agree_of_wire wired).1
  refine ⟨fun version declared => kindVersion?_of_merged resolved inside distinct declared, fun calls about => ?_⟩
  have own := ownSchemas_of_runAll resolved inside distinct about
  refine ⟨fun version declared => ?_, fun preferred definition built => ResourceDefinition.declares_of_build own built,
    fun initial registry preferred converters report registers registered =>
      ConversionRegistry.declares_of_registered resolved inside own registers registered⟩
  exact (kindVersionSchema_answer ..).trans (own version declared)

/-- The second version of the kind is declared after another kind. -/
theorem embeds_declared_desks :
    let kind := deskKind "Desk" none ["v1", "v2"]
    let graph : VersionGraph := ⟨"desks.dev", "Desk", "v2", false, ["v1", "v2"]⟩
    splitDesks.resolveGroup = .ok "desks.dev" ∧ kind ∈ mergeAll splitDesks.kinds ∧ kind.wire none = .ok graph ∧
    splitDesks.kindVersion? "Desk" "v2" = some (deskVersion "v2") ∧
    ((kindVersionSchema splitDesks "Desk" "v2").run
      ((runAll [.view splitDesks true]).run .empty).value.2).value.1 = .ok deskSchema ∧
    (deskDefinition kind graph).Declares kind "v2" := by
  intro kind graph
  have resolved : splitDesks.resolveGroup = .ok "desks.dev" := by rfl
  have inside : kind ∈ mergeAll splitDesks.kinds := List.mem_cons_self ..
  have wired : kind.wire none = .ok graph := by rfl
  have second : deskVersion "v2" ∈ kind.versions := List.mem_cons_of_mem _ (List.mem_cons_self ..)
  obtain ⟨found, embeds⟩ := embeds_declared resolved inside wired
  refine ⟨resolved, inside, wired, found _ second, ?_, ?_⟩
  · have about : ∀ call ∈ [CacheCall.view splitDesks true], call.manifest = splitDesks := by simp [CacheCall.manifest]
    refine ((embeds _ about).1 _ second).trans ?_
    exact congrArg (Except.mapError Error.schema) (synthesize_desk "Desk" "v2")
  · obtain ⟨own, wires, declares⟩ := (embeds [] (List.forall_mem_nil _)).2.1 [] _ (alone_desk resolved inside wired)
    obtain rfl := Except.ok.inj (wired.symm.trans wires)
    exact declares

end AppManifest

end ResourceKinds
