import ResourceKinds.Conversion.Registry
import ResourceKinds.Proofs.CacheRuns
import ResourceKinds.Proofs.Kind.Declarations
import ResourceKinds.Proofs.Kind.Wiring

namespace ResourceKinds

namespace ConversionRegistry

variable {manifest : AppManifest} {answers : String → String → Except Error Synthesized} {preferred : Fields String}
  {converters : Fields Converter}

/-- The codecs of these versions prune by the schemas that are answered for them. -/
def Pruning (answers : String → Except Error Synthesized) (codecs : Fields Codec) (versions : List KindVersion) : Prop :=
  ∀ version ∈ versions, ∃ synthesized, answers version.name = .ok synthesized ∧
    codecs.lookup version.name = some (.pruning synthesized.schema)

/-- The error is that of the first version that no schema is answered for. -/
inductive Unanswered (answers : String → Except Error Synthesized) (error : Error) : List KindVersion → Prop
  | here {version rest} (failed : answers version.name = .error error) : Unanswered answers error (version :: rest)
  | later {version rest synthesized} (answered : answers version.name = .ok synthesized)
      (unanswered : Unanswered answers error rest) : Unanswered answers error (version :: rest)

theorem exists_of_unanswered {answers : String → Except Error Synthesized} {error : Error}
    {versions : List KindVersion} (unanswered : Unanswered answers error versions) :
    ∃ version ∈ versions, answers version.name = .error error := by
  induction unanswered with
  | here failed => exact ⟨_, List.mem_cons_self .., failed⟩
  | later _ _ ih =>
    obtain ⟨version, inside, failed⟩ := ih
    exact ⟨version, List.mem_cons_of_mem _ inside, failed⟩

theorem codecsFor_ensures (kind : String) (versions : List KindVersion) :
    Ensures (ManifestCache.Answers manifest answers) (codecsFor manifest kind versions) fun answer cache =>
      ((∀ codecs, answer = .ok codecs → Pruning (answers kind) codecs versions) ∧
        ∀ error, answer = .error error → Unanswered (answers kind) error versions) ∧
          ManifestCache.Answers manifest answers cache := by
  induction versions with
  | nil => exact Ensures.pure fun cache same => ⟨⟨fun _ _ => nofun, nofun⟩, same⟩
  | cons version rest ih =>
    refine (ManifestCache.kindVersionSchema_answers kind version.name).bind fun answer => Ensures.given fun answered => ?_
    cases answer with
    | error error =>
      refine Ensures.pure fun cache same => ⟨⟨nofun, ?_⟩, same⟩
      rintro _ ⟨⟩
      exact .here answered.symm
    | ok synthesized =>
      refine ih.bind fun answer => Ensures.given fun later => ?_
      cases answer with
      | error error =>
        refine Ensures.pure fun cache same => ⟨⟨nofun, ?_⟩, same⟩
        rintro _ ⟨⟩
        exact .later answered.symm (later.2 error rfl)
      | ok codecs =>
        refine Ensures.pure fun cache same => ⟨⟨?_, nofun⟩, same⟩
        rintro _ ⟨⟩ other inside
        rw [Table.lookup_insert]
        split
        · rename_i named
          exact ⟨synthesized, by rw [named, answered], rfl⟩
        · rename_i different
          rcases List.mem_cons.mp inside with rfl | inside
          · exact absurd rfl different
          · exact later.1 codecs rfl other inside

/-- What the registration of a kind consists of. -/
structure Prepared (answers : String → String → Except Error Synthesized) (preferred : Fields String)
    (converters : Fields Converter) (kind : KindDefinition) (entry : KindConversion) : Prop where
  wired : kind.wire (preferred.lookup kind.kind) = .ok entry.graph
  pruning : Pruning (answers kind.kind) entry.codecs kind.versions
  converter : entry.converter = (converters.lookup kind.kind).getD .restamp

/-- What keeps a kind from being registered: it cannot be wired, or one of its versions has no schema. -/
inductive Refused (answers : String → String → Except Error Synthesized) (preferred : Fields String)
    (kind : KindDefinition) : Error → Prop
  | unwired {cause} (fails : kind.wire (preferred.lookup kind.kind) = .error cause) :
      Refused answers preferred kind (.versionGraph cause)
  | unanswered {graph error} (wired : kind.wire (preferred.lookup kind.kind) = .ok graph)
      (fails : Unanswered (answers kind.kind) error kind.versions) : Refused answers preferred kind error

theorem prepare_ensures (kind : KindDefinition) :
    Ensures (ManifestCache.Answers manifest answers) (prepare manifest preferred converters kind) fun answer cache =>
      ((∀ entry, answer = .ok entry → Prepared answers preferred converters kind entry) ∧
        ∀ error, answer = .error error → Refused answers preferred kind error) ∧
          ManifestCache.Answers manifest answers cache := by
  have wired : Ensures (ManifestCache.Answers manifest answers)
      (liftM (kind.wireLogged (preferred.lookup kind.kind))) fun answer cache =>
        answer = kind.wire (preferred.lookup kind.kind) ∧ ManifestCache.Answers manifest answers cache :=
    Ensures.logged fun cache same => ⟨rfl, same⟩
  refine wired.bind fun answer => Ensures.given fun answered => ?_
  cases answer with
  | error cause =>
    refine Ensures.pure fun cache same => ⟨⟨nofun, ?_⟩, same⟩
    rintro _ ⟨⟩
    exact .unwired answered.symm
  | ok graph =>
    refine (codecsFor_ensures kind.kind kind.versions).bind fun answer => Ensures.given fun codecs => ?_
    cases answer with
    | error error =>
      refine Ensures.pure fun cache same => ⟨⟨nofun, ?_⟩, same⟩
      rintro _ ⟨⟩
      exact .unanswered answered.symm (codecs.2 error rfl)
    | ok table =>
      refine Ensures.pure fun cache same => ⟨⟨?_, nofun⟩, same⟩
      rintro _ ⟨⟩
      exact ⟨answered.symm, codecs.1 table rfl, rfl⟩

theorem find?_register (registry : ConversionRegistry) (entry : KindConversion) (group kind : String) :
    (registry.register entry).find? group kind =
      if entry.graph.group = group ∧ entry.graph.kind = kind then some entry else registry.find? group kind := by
  simp only [register, find?, Table.lookup, Prod.mk.injEq]
  split
  · rfl
  · rename_i different
    exact Table.lookup_erase_of_ne fun same => different (by simpa [eq_comm] using Prod.mk.inj same)

/-- How the registration of some kinds went: each of them comes with what kept it from being registered, if
anything did. -/
structure Registration (answers : String → String → Except Error Synthesized) (preferred : Fields String)
    (converters : Fields Converter) (before after : ConversionRegistry) (report : RegistrationReport)
    (outcomes : List (KindDefinition × Option Error)) : Prop where
  registered : report.registered = outcomes.filterMap fun outcome => if outcome.2.isNone then some outcome.1.kind else none
  failed : report.failed = outcomes.filterMap fun outcome => outcome.2.map (outcome.1.kind, ·)
  whole : ∀ kind, (kind, none) ∈ outcomes →
    ∃ entry, Prepared answers preferred converters kind entry ∧ after.find? kind.group kind.kind = some entry
  refused : ∀ kind error, (kind, some error) ∈ outcomes →
    Refused answers preferred kind error ∧ after.find? kind.group kind.kind = before.find? kind.group kind.kind
  others : ∀ group name, (∀ outcome ∈ outcomes, ¬ (outcome.1.group = group ∧ outcome.1.kind = name)) →
    after.find? group name = before.find? group name

namespace Registration

variable {before after : ConversionRegistry} {report : RegistrationReport} {kind : KindDefinition}
  {outcomes : List (KindDefinition × Option Error)}

theorem nil : Registration answers preferred converters before before ⟨[], []⟩ [] :=
  ⟨rfl, rfl, nofun, nofun, fun _ _ _ => rfl⟩

/-- A kind that is registered first is not replaced by kinds that differ from it. -/
theorem register {entry : KindConversion} (prepared : Prepared answers preferred converters kind entry)
    (apart : ∀ outcome ∈ outcomes, kind.sameKind outcome.1 = false)
    (later : Registration answers preferred converters (before.register entry) after report outcomes) :
    Registration answers preferred converters before after
      { report with registered := kind.kind :: report.registered } ((kind, none) :: outcomes) := by
  have wired := KindDefinition.wired_of_wire prepared.wired
  have elsewhere {group name : String} (other : ¬ (kind.group = group ∧ kind.kind = name)) :
      (before.register entry).find? group name = before.find? group name := by
    rw [find?_register, wired.group, wired.kind, if_neg other]
  refine ⟨by simp [later.registered], by simp [later.failed], fun other inside => ?_, fun other error inside => ?_,
    fun group name absent => ?_⟩
  · rcases List.mem_cons.mp inside with same | inside
    · obtain rfl := (Prod.mk.inj same).1
      refine ⟨entry, prepared, ?_⟩
      rw [later.others, find?_register, if_pos ⟨wired.group, wired.kind⟩]
      rintro outcome among ⟨inGroup, named⟩
      have different := apart outcome among
      rw [KindDefinition.sameKind_iff.mpr ⟨inGroup.symm, named.symm⟩] at different
      cases different
    · exact later.whole other inside
  · rcases List.mem_cons.mp inside with same | inside
    · cases (Prod.mk.inj same).2
    · obtain ⟨refused, unchanged⟩ := later.refused other error inside
      refine ⟨refused, unchanged.trans (elsewhere fun same => ?_)⟩
      have different := apart _ inside
      rw [KindDefinition.sameKind_iff.mpr same] at different
      cases different
  · rw [later.others group name fun outcome among => absent outcome (List.mem_cons_of_mem _ among)]
    exact elsewhere (absent _ (List.mem_cons_self ..))

theorem refuse {error : Error} (refused : Refused answers preferred kind error)
    (apart : ∀ outcome ∈ outcomes, kind.sameKind outcome.1 = false)
    (later : Registration answers preferred converters before after report outcomes) :
    Registration answers preferred converters before after
      { report with failed := (kind.kind, error) :: report.failed } ((kind, some error) :: outcomes) := by
  refine ⟨by simp [later.registered], by simp [later.failed], fun other inside => ?_, fun other found inside => ?_,
    fun group name absent => ?_⟩
  · rcases List.mem_cons.mp inside with same | inside
    · cases (Prod.mk.inj same).2
    · exact later.whole other inside
  · rcases List.mem_cons.mp inside with same | inside
    · obtain ⟨rfl, reason⟩ := Prod.mk.inj same
      obtain rfl := Option.some.inj reason
      refine ⟨refused, later.others _ _ ?_⟩
      rintro outcome among ⟨inGroup, named⟩
      have different := apart outcome among
      rw [KindDefinition.sameKind_iff.mpr ⟨inGroup.symm, named.symm⟩] at different
      cases different
    · exact later.refused other found inside
  · exact later.others group name fun outcome among => absent outcome (List.mem_cons_of_mem _ among)

/-- What is found afterwards was prepared for one of the kinds, or was there before. -/
theorem prepared_or_before (registration : Registration answers preferred converters before after report outcomes)
    {group name : String} {entry : KindConversion} (found : after.find? group name = some entry) :
    (∃ kind, (kind, none) ∈ outcomes ∧ Prepared answers preferred converters kind entry) ∨
      before.find? group name = some entry := by
  by_cases listed : ∃ outcome ∈ outcomes, outcome.1.group = group ∧ outcome.1.kind = name
  · obtain ⟨⟨kind, kept⟩, among, rfl, rfl⟩ := listed
    cases kept with
    | none =>
      obtain ⟨prepared, isPrepared, same⟩ := registration.whole kind among
      obtain rfl := Option.some.inj (same.symm.trans found)
      exact .inl ⟨kind, among, isPrepared⟩
    | some error => exact .inr ((registration.refused kind error among).2 ▸ found)
  · have untouched := registration.others group name fun outcome among same => listed ⟨outcome, among, same⟩
    exact .inr (untouched ▸ found)

end Registration

/-- Kinds that differ from each other are registered one after the other, each by its own outcome. -/
theorem registerKinds_ensures (kinds : List KindDefinition) (apart : KindDefinition.Apart kinds)
    (registry : ConversionRegistry) :
    Ensures (ManifestCache.Answers manifest answers) (registerKinds manifest preferred converters kinds registry)
      fun answer cache => (∃ outcomes, outcomes.map Prod.fst = kinds ∧
          Registration answers preferred converters registry answer.1 answer.2 outcomes) ∧
        ManifestCache.Answers manifest answers cache := by
  induction kinds generalizing registry with
  | nil => exact Ensures.pure fun cache same => ⟨⟨[], rfl, .nil⟩, same⟩
  | cons kind rest ih =>
    obtain ⟨fromRest, apart⟩ := List.pairwise_cons.mp apart
    have differ {outcomes : List (KindDefinition × Option Error)} (listed : outcomes.map Prod.fst = rest) :
        ∀ outcome ∈ outcomes, kind.sameKind outcome.1 = false :=
      fun outcome among => fromRest outcome.1 (listed ▸ List.mem_map_of_mem among)
    refine (prepare_ensures kind).bind fun answer => Ensures.given fun prepared => ?_
    cases answer with
    | error error =>
      refine (ih apart registry).bind fun answer => Ensures.given fun later => ?_
      obtain ⟨outcomes, listed, later⟩ := later
      exact Ensures.pure fun cache same => ⟨⟨(kind, some error) :: outcomes, by simp [listed],
        later.refuse (prepared.2 error rfl) (differ listed)⟩, same⟩
    | ok entry =>
      refine (ih apart (registry.register entry)).bind fun answer => Ensures.given fun later => ?_
      obtain ⟨outcomes, listed, later⟩ := later
      exact Ensures.pure fun cache same => ⟨⟨(kind, none) :: outcomes, by simp [listed],
        later.register (prepared.1 entry rfl) (differ listed)⟩, same⟩

theorem registerManifest_ensures (preferred : Fields String) (converters : Fields Converter)
    (registry : ConversionRegistry) :
    Ensures (ManifestCache.Answers manifest answers) (registry.registerManifest manifest preferred converters)
      fun answer cache => (∃ outcomes, outcomes.map Prod.fst = KindDefinition.mergeAll manifest.kinds ∧
          Registration answers preferred converters registry answer.1 answer.2 outcomes) ∧
        ManifestCache.Answers manifest answers cache :=
  registerKinds_ensures _ (KindDefinition.apart_mergeAll _) registry

/-- A kind that a report lists as registered is one of the manifest, and is found with what it was registered for. -/
theorem exists_prepared_of_answers {cache : ManifestCache} (same : ManifestCache.Answers manifest answers cache)
    {initial registry : ConversionRegistry} {report : RegistrationReport}
    (registers : ((initial.registerManifest manifest preferred converters).run cache).value.1 = (registry, report))
    {name : String} (registered : name ∈ report.registered) :
    ∃ kind ∈ KindDefinition.mergeAll manifest.kinds, kind.kind = name ∧
      ∃ entry, Prepared answers preferred converters kind entry ∧ registry.find? kind.group name = some entry := by
  have ensured := registerManifest_ensures preferred converters initial cache same
  rw [registers] at ensured
  obtain ⟨⟨outcomes, listed, registration⟩, _⟩ := ensured
  rw [registration.registered, List.mem_filterMap] at registered
  obtain ⟨⟨kind, kept⟩, among, named⟩ := registered
  cases kept with
  | some error => cases named
  | none =>
    obtain rfl := Option.some.inj named
    exact ⟨kind, listed ▸ List.mem_map_of_mem among, rfl, registration.whole kind among⟩

theorem exists_prepared {initial registry : ConversionRegistry} {report : RegistrationReport}
    (registers : ((initial.registerManifest manifest preferred []).run .empty).value.1 = (registry, report))
    {name : String} (registered : name ∈ report.registered) :
    ∃ kind ∈ KindDefinition.mergeAll manifest.kinds, kind.kind = name ∧
      ∃ entry, Prepared manifest.schemaOf preferred [] kind entry ∧ registry.find? kind.group name = some entry := by
  have faithful : ManifestCache.Answers manifest manifest.schemaOf .empty := fun _ _ => rfl
  exact exists_prepared_of_answers faithful registers registered

/-- A kind that can be wired and has all of its schemas is registered, with its graph. -/
theorem graph?_registerManifest {kind : KindDefinition} (inside : kind ∈ KindDefinition.mergeAll manifest.kinds)
    {graph : VersionGraph} (wired : kind.wire (preferred.lookup kind.kind) = .ok graph)
    (answered : ∀ version ∈ kind.versions, ∃ synthesized, manifest.schemaOf kind.kind version.name = .ok synthesized)
    (registry : ConversionRegistry) (converters : Fields Converter) :
    let outcome := ((registry.registerManifest manifest preferred converters).run .empty).value.1
    kind.kind ∈ outcome.2.registered ∧ outcome.1.graph? kind.group kind.kind = some graph := by
  have faithful : ManifestCache.Answers manifest manifest.schemaOf .empty := fun _ _ => rfl
  obtain ⟨⟨outcomes, listed, registration⟩, _⟩ :=
    registerManifest_ensures preferred converters registry .empty faithful
  rw [← listed] at inside
  obtain ⟨⟨kind, kept⟩, among, rfl⟩ := List.mem_map.mp inside
  cases kept with
  | none =>
    obtain ⟨entry, prepared, found⟩ := registration.whole kind among
    obtain rfl := Except.ok.inj (wired.symm.trans prepared.wired)
    refine ⟨?_, congrArg (Option.map KindConversion.graph) found⟩
    rw [registration.registered]
    exact List.mem_filterMap.mpr ⟨_, among, rfl⟩
  | some error =>
    cases (registration.refused kind error among).1 with
    | unwired fails =>
      rw [wired] at fails
      cases fails
    | unanswered _ fails =>
      obtain ⟨version, declared, failed⟩ := exists_of_unanswered fails
      obtain ⟨synthesized, own⟩ := answered version declared
      rw [own] at failed
      cases failed

theorem Prepared.restamps {kind : KindDefinition} {entry : KindConversion}
    (prepared : Prepared answers preferred [] kind entry) : entry.converter = .restamp :=
  prepared.converter

/-- Each version that is declared for a registered kind has the codec of its schema. -/
theorem Prepared.exists_codec {group : String} (resolved : manifest.resolveGroup = .ok group) {kind : KindDefinition}
    (inside : kind ∈ KindDefinition.mergeAll manifest.kinds) {entry : KindConversion}
    (prepared : Prepared manifest.schemaOf preferred converters kind entry) {version : String} {declared : KindVersion}
    (found : manifest.kindVersion? kind.kind version = some declared) :
    version ∈ entry.graph.versions ∧ ∃ synthesized, declared.schema.synthesize kind.kind version = .ok synthesized ∧
      entry.codecs.lookup version = some (.pruning synthesized.schema) := by
  obtain ⟨declares, rfl⟩ := AppManifest.mem_versions_of_kindVersion? resolved inside found
  have wired := KindDefinition.wired_of_wire prepared.wired
  obtain ⟨synthesized, own, prunes⟩ := prepared.pruning declared declares
  obtain ⟨_, other, foundToo, built⟩ := AppManifest.schemaOf_eq_ok.mp own
  obtain rfl : other = declared := Option.some.inj (foundToo.symm.trans found)
  refine ⟨?_, synthesized, built, prunes⟩
  rw [wired.versions]
  exact List.mem_map_of_mem declares

/-- The hub of a registered kind is declared, in a manifest that has a group. -/
theorem Prepared.exists_hub {kind : KindDefinition} {entry : KindConversion}
    (prepared : Prepared manifest.schemaOf preferred converters kind entry) :
    (∃ group, manifest.resolveGroup = .ok group) ∧
      ∃ declared, manifest.kindVersion? kind.kind entry.graph.hub = some declared := by
  have wired := KindDefinition.wired_of_wire prepared.wired
  obtain ⟨version, inside, named⟩ := List.mem_map.mp wired.hub
  obtain ⟨synthesized, own, _⟩ := prepared.pruning version inside
  obtain ⟨resolved, declared, found, _⟩ := AppManifest.schemaOf_eq_ok.mp own
  rw [named] at found
  exact ⟨resolved, declared, found⟩

end ConversionRegistry

end ResourceKinds
