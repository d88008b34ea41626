import ResourceKinds.Proofs.Conversion.Registration
import ResourceKinds.Proofs.Conversion.TypeMembers
import ResourceKinds.Proofs.Json.IntegerText

namespace ResourceKinds

namespace ConversionRegistry

/-- An object converted into one version, and what comes out of that into another. -/
def convertVia (registry : ConversionRegistry) (object : Json) (via version : String) :
    Except ConversionError Json := do
  let between ← (registry.convert object via).result
  (registry.convert between version).result

section Hop

variable {registry : ConversionRegistry} {entry : KindConversion} {type : TypeMeta}

theorem travel_route {route : Route} {members : Fields Json} {source target : StructuralSchema}
    (restamps : entry.converter = .restamp) (encodes : entry.codecs.lookup route.source = some (.pruning source))
    (decodes : entry.codecs.lookup route.target = some (.pruning target)) (portable : (Json.object members).Portable) :
    (travel entry [route] type (.object members)).result =
      .ok (target.prune (Converter.restampObject (type.withVersion route.target) members)) := by
  have restamped := Converter.restampObject_portable (type.withVersion route.target) portable
  have encoder : entry.codec route.source = .pruning source := by rw [KindConversion.codec, encodes]; rfl
  have decoder : entry.codec route.target = .pruning target := by rw [KindConversion.codec, decodes]; rfl
  have encoded : (entry.codec route.source).encode (.object members) = .ok (Json.object members).compact := by
    rw [encoder]
    rfl
  have converted :
      entry.converter.convert route.direction ⟨type, (Json.object members).compact⟩ (type.withVersion route.target) =
        .ok (Converter.restampObject (type.withVersion route.target) members).compact := by
    rw [restamps]
    simp only [Converter.convert, Converter.restampText, Codec.json, portable.read_eq]
    rfl
  have decoded :
      (entry.codec route.target).decode (Converter.restampObject (type.withVersion route.target) members).compact =
        .ok (target.prune (Converter.restampObject (type.withVersion route.target) members)) := by
    rw [decoder]
    simp only [Codec.pruning, Codec.json, restamped.read_eq]
    rfl
  simp only [travel, encoded, converted, Except.bind, decoded]

/-- Where one hop leads to a version, an object comes out with the type members of that version and
pruned by its schema. -/
theorem convert_route {version : String} {direction : Direction} {members : Fields Json}
    {source target : StructuralSchema}
    (typed : TypeMeta.ofObject (.object members) = .ok type) (found : registry.find? type.group type.kind = some entry)
    (declared : type.version ∈ entry.graph.versions) (wanted : version ∈ entry.graph.versions)
    (leads : entry.graph.path? type.version version = some [⟨type.version, version, direction⟩])
    (restamps : entry.converter = .restamp) (encodes : entry.codecs.lookup type.version = some (.pruning source))
    (decodes : entry.codecs.lookup version = some (.pruning target)) (portable : (Json.object members).Portable) :
    (registry.convert (.object members) version).result =
      .ok (target.prune (Converter.restampObject (type.withVersion version) members)) := by
  have contains : entry.graph.contains type.version = true := by simpa [VersionGraph.contains] using declared
  have containsWanted : entry.graph.contains version = true := by simpa [VersionGraph.contains] using wanted
  simp only [convert, typed, found, contains, containsWanted, leads, Bool.not_true, Bool.false_eq_true, if_false]
  exact travel_route restamps encodes decodes portable

end Hop

/-- A version of a registered kind apart from the hub, with the schemas by which the two prune. -/
structure HasRoundTrip (registry : ConversionRegistry) (type : TypeMeta) (central own : StructuralSchema)
    (entry : KindConversion) : Prop where
  grouped : type.group ≠ ""
  found : registry.find? type.group type.kind = some entry
  other : type.version ≠ entry.graph.hub
  declared : type.version ∈ entry.graph.versions
  hubDeclared : entry.graph.hub ∈ entry.graph.versions
  restamps : entry.converter = .restamp
  prunes : entry.codecs.lookup type.version = some (.pruning own)
  hubPrunes : entry.codecs.lookup entry.graph.hub = some (.pruning central)

namespace HasRoundTrip

variable {registry : ConversionRegistry} {type : TypeMeta} {central own : StructuralSchema} {entry : KindConversion}

/-- What comes back from the hub is the object pruned by both schemas. At the hub it has other type members, and written
back it has its own again. -/
theorem convertVia_eq (trip : registry.HasRoundTrip type central own entry) (last : '/' ∉ entry.graph.hub.toList)
    {object : Json} (portable : object.Portable) (typed : TypeMeta.ofObject object = .ok type) :
    registry.convertVia object entry.graph.hub type.version = .ok (own.prune (central.prune object)) := by
  obtain ⟨members, rfl⟩ := TypeMeta.exists_members typed
  obtain ⟨versioned, named⟩ := TypeMeta.get?_of_ofObject typed trip.grouped
  have ascending : Table.Ascending members := portable.wellFormed.1
  have isVersion : "apiVersion" ∈ StructuralSchema.typeMembers := by decide
  have isKind : "kind" ∈ StructuralSchema.typeMembers := by decide
  have away := convert_route typed trip.found trip.declared trip.hubDeclared
    (VersionGraph.path?_toHub trip.declared trip.hubDeclared trip.other) trip.restamps trip.prunes trip.hubPrunes portable
  let kept : Fields Json := Json.retainMembers central.admits members
  have stamped : central.prune (Converter.restampObject (type.withVersion entry.graph.hub) members) =
      Converter.restampObject (type.withVersion entry.graph.hub) kept := by
    rw [StructuralSchema.prune_eq_retain]
    exact Converter.retain_restampObject _ ascending (StructuralSchema.admits_member isVersion)
      (StructuralSchema.admits_member isKind)
  have typedThere : TypeMeta.ofObject (Converter.restampObject (type.withVersion entry.graph.hub) kept) =
      .ok (type.withVersion entry.graph.hub) := by
    refine TypeMeta.ofObject_of_get? trip.grouped last ?_ ?_ <;> simp [Converter.get?_restampObject]
  have portableThere : (Converter.restampObject (type.withVersion entry.graph.hub) kept).Portable :=
    Converter.restampObject_portable _ (portable.retain central.admits)
  have back := convert_route typedThere trip.found trip.hubDeclared trip.declared
    (VersionGraph.path?_fromHub trip.declared trip.hubDeclared trip.other) trip.restamps trip.hubPrunes trip.prunes
    portableThere
  have pruned : central.prune (.object members) = .object kept := by
    rw [StructuralSchema.prune_eq_retain]
    rfl
  have stays {name text : String} (isType : name ∈ StructuralSchema.typeMembers)
      (there : (Json.object members).get? name = some (.string text)) :
        Table.lookup kept name = some (.string text) := by
    have left := StructuralSchema.get?_prune_string central isType there
    rwa [pruned] at left
  have restored : Converter.restampObject type ((kept.insert "apiVersion"
      (.string (type.withVersion entry.graph.hub).apiVersion)).insert "kind" (.string type.kind)) = .object kept :=
    Converter.restampObject_restampObject (Json.ascending_retainMembers ascending)
      (stays isVersion versioned) (stays isKind named)
  rw [convertVia, away, stamped, pruned, ← restored]
  exact back

end HasRoundTrip

/-- A version of a kind whose specification has these fields. -/
def issueVersion (name : String) (fields : List String) : KindVersion :=
  let spec : SchemaNode := .object (fields.map (·, .scalar none .empty)) .none ⟨[], false, .empty⟩
  ⟨name, ⟨[("Issue", .object [("spec", spec)] .none ⟨[], false, .empty⟩)]⟩, [], [], ⟨true, true⟩, .none, false, true⟩

def issueSynthesis (fields : List String) : Synthesized :=
  let spec : StructuralNode := .object (fields.map (·, .scalar none .empty)) none ⟨[], false, .empty⟩
  ⟨"Issue", ⟨[("spec", spec)], none, ⟨[], false, .empty⟩⟩, [], []⟩

/-- A tracker whose newer version, the hub, has lost the notes of the older one. -/
def issueTracker : AppManifest :=
  ⟨"tracker", "tracker.dev", [⟨"tracker.dev", "Issue", .namespaced, "", "",
    [issueVersion "v1" ["notes", "size"], issueVersion "v2" ["size"]], none⟩]⟩

/-- An issue of the older version with these fields in its specification. -/
def issue (spec : List (String × Json)) : Json :=
  .object [("apiVersion", .string "tracker.dev/v1"), ("kind", .string "Issue"), ("spec", .object spec)]

/-- The registry with the tracker in it, and the report about that. -/
def issueRegistration : ConversionRegistry × RegistrationReport :=
  ((empty.registerManifest issueTracker [] []).run .empty).value.1

/-- An object of a registered kind that goes from its version to the hub and back loses the fields that
the schema of the hub or its own would prune, and nothing else; then it makes the way unchanged. -/
theorem convertVia_hub {initial registry : ConversionRegistry} {manifest : AppManifest} {preferred : Fields String}
    {report : RegistrationReport}
    (registers : ((initial.registerManifest manifest preferred []).run .empty).value.1 = (registry, report))
    {kind : String} (registered : kind ∈ report.registered) :
    ∃ group hub hubVersion central, manifest.resolveGroup = .ok group ∧ registry.hub? group kind = some hub ∧
      manifest.kindVersion? kind hub = some hubVersion ∧ hubVersion.schema.synthesize kind hub = .ok central ∧
      ∀ version declared, manifest.kindVersion? kind version = some declared → version ≠ hub → '/' ∉ hub.toList →
        ∃ own, declared.schema.synthesize kind version = .ok own ∧
          ∀ object : Json, object.Portable → TypeMeta.ofObject object = .ok ⟨group, version, kind⟩ →
            ∃ back, registry.convertVia object hub version = .ok back ∧
              back = object.without (fun path => central.schema.removes object path || own.schema.removes object path) ∧
              back.get? "apiVersion" = object.get? "apiVersion" ∧ back.get? "kind" = object.get? "kind" ∧
              registry.convertVia back hub version = .ok back := by
  obtain ⟨definition, inside, rfl, entry, prepared, found⟩ := exists_prepared registers registered
  obtain ⟨⟨group, resolved⟩, hubVersion, hubFound⟩ := prepared.exists_hub
  obtain ⟨rfl, grouped⟩ := AppManifest.group_of_merged resolved inside
  obtain ⟨hubDeclared, central, hubBuilt, hubPrunes⟩ := prepared.exists_codec resolved inside hubFound
  refine ⟨definition.group, entry.graph.hub, hubVersion, central, resolved, ?_, hubFound, hubBuilt, ?_⟩
  · rw [hub?, graph?, found]
    rfl
  intro version declared versionFound other last
  obtain ⟨isDeclared, own, built, prunes⟩ := prepared.exists_codec resolved inside versionFound
  have trip : registry.HasRoundTrip ⟨definition.group, version, definition.kind⟩ central.schema own.schema entry :=
    ⟨grouped, found, other, isDeclared, hubDeclared, prepared.restamps, prunes, hubPrunes⟩
  refine ⟨own, built, fun object portable typed => ?_⟩
  obtain ⟨versioned, named⟩ := TypeMeta.get?_of_ofObject typed grouped
  let back := own.schema.prune (central.schema.prune object)
  have backVersioned : back.get? "apiVersion" = object.get? "apiVersion" := by
    rw [versioned]
    exact StructuralSchema.get?_prune_string _ (by decide) (StructuralSchema.get?_prune_string _ (by decide) versioned)
  have backNamed : back.get? "kind" = object.get? "kind" := by
    rw [named]
    exact StructuralSchema.get?_prune_string _ (by decide) (StructuralSchema.get?_prune_string _ (by decide) named)
  have backPortable : back.Portable := by
    simp only [back, StructuralSchema.prune_eq_retain]
    exact (portable.retain _).retain _
  have backTyped : TypeMeta.ofObject back = .ok ⟨definition.group, version, definition.kind⟩ := by
    unfold TypeMeta.ofObject at typed ⊢
    rw [backVersioned, backNamed]
    exact typed
  refine ⟨back, trip.convertVia_eq last portable typed, ?_, backVersioned, backNamed, ?_⟩
  · exact StructuralSchema.prune_prune_eq_without portable.wellFormed central.schema own.schema
  · rw [trip.convertVia_eq last backPortable backTyped]
    exact congrArg Except.ok (StructuralSchema.prune_prune_idem central.schema own.schema object)

/-- The notes are lost on the way to the hub, and the size comes back. -/
theorem convertVia_hub_issue :
    issueRegistration.1.convertVia (issue [("notes", .string "n"), ("size", .number (.int 3))]) "v2" "v1" =
        .ok (issue [("size", .number (.int 3))]) ∧
      issueRegistration.1.convertVia (issue [("size", .number (.int 3))]) "v2" "v1" =
        .ok (issue [("size", .number (.int 3))]) := by
  have inGroup : issueTracker.resolveGroup = .ok "tracker.dev" := by cbv
  have declared : issueTracker.kindVersion? "Issue" "v1" = some (issueVersion "v1" ["notes", "size"]) := by cbv
  have hubDeclared : issueTracker.kindVersion? "Issue" "v2" = some (issueVersion "v2" ["size"]) := by cbv
  have ownIs : (issueVersion "v1" ["notes", "size"]).schema.synthesize "Issue" "v1" =
      .ok (issueSynthesis ["notes", "size"]) := by cbv
  have centralIs : (issueVersion "v2" ["size"]).schema.synthesize "Issue" "v2" =
      .ok (issueSynthesis ["size"]) := by cbv
  have answered : ∀ version ∈ [issueVersion "v1" ["notes", "size"], issueVersion "v2" ["size"]],
      ∃ synthesized, issueTracker.schemaOf "Issue" version.name = .ok synthesized :=
    List.forall_mem_cons.mpr ⟨⟨_, AppManifest.schemaOf_eq_ok.mpr ⟨⟨_, inGroup⟩, _, declared, ownIs⟩⟩,
      List.forall_mem_singleton.mpr ⟨_, AppManifest.schemaOf_eq_ok.mpr ⟨⟨_, inGroup⟩, _, hubDeclared, centralIs⟩⟩⟩
  let kind : KindDefinition := ⟨"tracker.dev", "Issue", .namespaced, "", "",
    [issueVersion "v1" ["notes", "size"], issueVersion "v2" ["size"]], none⟩
  have inside : kind ∈ KindDefinition.mergeAll issueTracker.kinds := List.mem_singleton_self kind
  have wired : kind.wire (Table.lookup [] "Issue") = .ok ⟨"tracker.dev", "Issue", "v2", false, ["v1", "v2"]⟩ := by rfl
  obtain ⟨registered, known⟩ := graph?_registerManifest inside wired answered empty []
  have registers : ((empty.registerManifest issueTracker [] []).run .empty).value.1 =
      (issueRegistration.1, issueRegistration.2) := rfl
  obtain ⟨group, hub, hubVersion, central, resolved, elected, hubFound, hubBuilt, trips⟩ :=
    convertVia_hub registers registered
  obtain rfl := Except.ok.inj (inGroup.symm.trans resolved)
  have hubIs : issueRegistration.1.hub? "tracker.dev" "Issue" = some "v2" :=
    congrArg (Option.map VersionGraph.hub) known
  obtain rfl := Option.some.inj (hubIs.symm.trans elected)
  obtain ⟨own, built, trip⟩ := trips "v1" _ declared (by decide) (by decide)
  have typed : TypeMeta.ofObject (issue [("notes", .string "n"), ("size", .number (.int 3))]) =
      .ok ⟨"tracker.dev", "v1", "Issue"⟩ := by cbv
  have portable : (issue [("notes", .string "n"), ("size", .number (.int 3))]).Portable := by
    refine ⟨?_, ?_, by decide⟩
    · simp only [issue, Json.WellFormed, Json.WellFormedMembers, Table.Ascending, Table.keys]
      decide
    · have three := Json.legibleNumber_int (n := 3) (by decide) (by decide)
      simpa [issue, Json.Legible, Json.LegibleMembers] using three
  obtain ⟨back, returned, removed, _, _, again⟩ := trip _ portable typed
  obtain rfl := Option.some.inj (hubDeclared.symm.trans hubFound)
  obtain rfl := Except.ok.inj (centralIs.symm.trans hubBuilt)
  obtain rfl := Except.ok.inj (ownIs.symm.trans built)
  have same : back = issue [("size", .number (.int 3))] := by
    rw [removed]
    rfl
  rw [same] at returned again
  exact ⟨returned, again⟩

end ConversionRegistry

end ResourceKinds
