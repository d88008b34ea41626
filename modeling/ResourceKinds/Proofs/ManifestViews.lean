import ResourceKinds.Proofs.CacheRuns

namespace ResourceKinds

theorem Logged.foldlM_value {α β : Type} (step : β → α → Logged β) (items : List α) (start : β) :
    (items.foldlM step start).value = items.foldl (fun state item => (step state item).value) start := by
  induction items generalizing start with
  | nil => rfl
  | cons item rest ih =>
    rw [List.foldlM_cons, bind_value, ih]
    rfl

namespace AppManifest

variable {manifest : AppManifest}

/-- A name stands for the first version that is declared under it. -/
theorem kindVersion?_eq_find (manifest : AppManifest) (kind version : String) : manifest.kindVersion? kind version =
    (manifest.declared.find? fun declared => declared.1 = kind && declared.2.name = version).map Prod.snd := by
  unfold kindVersion? declared
  induction manifest.kinds with
  | nil => rfl
  | cons definition rest ih =>
    rw [List.flatMap_cons, List.find?_append, List.find?_map, Option.map_or, ← ih]
    by_cases named : definition.kind = kind
    · rw [List.filter_cons_of_pos (by simpa using named), List.findSome?_cons]
      have same : (fun declared : String × KindVersion =>
        decide (declared.1 = kind) && decide (declared.2.name = version)) ∘
          (fun version => (definition.kind, version)) = fun declared => decide (declared.name = version) := by
        funext declared
        simp [named]
      rw [same, Option.map_map]
      unfold KindDefinition.version?
      cases definition.versions.find? fun declared => decide (declared.name = version) <;> rfl
    · rw [List.filter_cons_of_neg (by simpa using named)]
      have nowhere : definition.versions.find? ((fun declared : String × KindVersion => decide (declared.1 = kind) &&
          decide (declared.2.name = version)) ∘ fun version => (definition.kind, version)) = none :=
        List.find?_eq_none.mpr fun declared _ => by simp [named]
      rw [nowhere]
      rfl

/-- What comes of a declared version, for which the first one of its name stands. -/
def outcome (manifest : AppManifest) (declared : String × KindVersion) : Except SchemaError Synthesized :=
  ((manifest.kindVersion? declared.1 declared.2.name).getD declared.2).schema.synthesize declared.1 declared.2.name

/-- What is taken for the schemas of the manifest's versions are their own. -/
def Knows (manifest : AppManifest) (known : Table SchemaKey Synthesized) : Prop :=
  ∀ kind version declared synthesized, manifest.kindVersion? kind version = some declared →
    known.lookup ⟨version, kind⟩ = some synthesized → declared.schema.synthesize kind version = .ok synthesized

def Buildable (manifest : AppManifest) : Prop :=
  ∀ kind version declared, manifest.kindVersion? kind version = some declared →
    ∃ synthesized, declared.schema.synthesize kind version = .ok synthesized

/-- The first time that a name comes up it has its own declaration. -/
theorem kindVersion?_of_new {done rest : List (String × KindVersion)} {declared : String × KindVersion}
    (whole : manifest.declared = done ++ declared :: rest)
    (new : ∀ earlier ∈ done, ¬ (earlier.1 = declared.1 ∧ earlier.2.name = declared.2.name)) :
    manifest.kindVersion? declared.1 declared.2.name = some declared.2 := by
  rw [kindVersion?_eq_find, whole, List.find?_append]
  have nowhere : done.find? (fun earlier => earlier.1 = declared.1 && earlier.2.name = declared.2.name) = none :=
    List.find?_eq_none.mpr fun earlier inside => by simpa using new earlier inside
  rw [nowhere]
  simp

/-- One step inserts the manifest's own outcome, and its schema is known from then on. -/
theorem step_spec (buildable : manifest.Buildable) {done rest : List (String × KindVersion)}
    {declared : String × KindVersion} (whole : manifest.declared = done ++ declared :: rest) {build : ViewBuild}
    (knows : manifest.Knows build.known)
    (through : ∀ earlier ∈ done, (build.known.lookup ⟨earlier.2.name, earlier.1⟩).isSome = true) :
    (build.step declared).value.outcomes =
        build.outcomes.insert ⟨declared.2.name, declared.1⟩ (manifest.outcome declared) ∧
      manifest.Knows (build.step declared).value.known ∧
      ∀ earlier ∈ done ++ [declared],
        ((build.step declared).value.known.lookup ⟨earlier.2.name, earlier.1⟩).isSome = true := by
  obtain ⟨kind, version⟩ := declared
  cases known : build.known.lookup ⟨version.name, kind⟩ with
  | some synthesized =>
    have found : (manifest.kindVersion? kind version.name).isSome = true := by
      rw [kindVersion?_eq_find, Option.isSome_map]
      exact List.find?_isSome.mpr ⟨(kind, version), by simp [whole], by simp⟩
    obtain ⟨first, found⟩ := Option.isSome_iff_exists.mp found
    have own := knows kind version.name first synthesized found known
    have stepped : (build.step (kind, version)).value =
        { build with outcomes := build.outcomes.insert ⟨version.name, kind⟩ (.ok synthesized) } := by
      simp only [ViewBuild.step, known]
    rw [stepped]
    refine ⟨by simp only [outcome, found, Option.getD_some, own], knows, fun earlier inside => ?_⟩
    rcases List.mem_append.mp inside with before | here
    · exact through earlier before
    · obtain rfl := List.mem_singleton.mp here
      simp [known]
  | none =>
    have new : manifest.kindVersion? kind version.name = some version := by
      refine kindVersion?_of_new whole ?_
      rintro ⟨_, earlier⟩ inside ⟨rfl, named⟩
      have kept := through _ inside
      rw [named, known] at kept
      cases kept
    obtain ⟨own, built⟩ := buildable kind version.name version new
    have stepped : (build.step (kind, version)).value =
        ⟨build.known.insert ⟨version.name, kind⟩ own, build.outcomes.insert ⟨version.name, kind⟩ (.ok own),
          build.builds + 1⟩ := by
      simp only [ViewBuild.step, known, built]
    rw [stepped]
    refine ⟨by simp only [outcome, new, Option.getD_some, built], ?_, fun earlier inside => ?_⟩
    · intro name other declared synthesized found kept
      rw [Table.lookup_insert] at kept
      split at kept
      · rename_i same
        obtain ⟨rfl, rfl⟩ := SchemaKey.mk.inj same
        obtain rfl := Option.some.inj kept
        obtain rfl := Option.some.inj (new.symm.trans found)
        exact built
      · exact knows name other declared synthesized found kept
    · rw [Table.lookup_insert]
      split
      · rfl
      · rename_i different
        rcases List.mem_append.mp inside with before | here
        · exact through earlier before
        · obtain rfl := List.mem_singleton.mp here
          exact absurd rfl different

theorem outcomes_eq (buildable : manifest.Buildable) {done rest : List (String × KindVersion)}
    (whole : manifest.declared = done ++ rest) (build : ViewBuild) (knows : manifest.Knows build.known)
    (through : ∀ earlier ∈ done, (build.known.lookup ⟨earlier.2.name, earlier.1⟩).isSome = true) :
    (rest.foldl (fun build declared => (build.step declared).value) build).outcomes =
      rest.foldl (fun table declared => table.insert ⟨declared.2.name, declared.1⟩ (manifest.outcome declared))
        build.outcomes := by
  induction rest generalizing done build with
  | nil => rfl
  | cons declared rest ih =>
    obtain ⟨outcomes, stillKnows, stillThrough⟩ := step_spec buildable whole knows through
    rw [List.foldl_cons, List.foldl_cons, ih (by simp [whole]) _ stillKnows stillThrough, outcomes]

/-- A view does not depend on which of the manifest's own schemas were known before. -/
theorem buildView_eq_fresh (buildable : manifest.Buildable) (group : String) {known : Table SchemaKey Synthesized}
    (knows : manifest.Knows known) :
    (manifest.buildView group true known).value.1 = (manifest.buildView group true []).value.1 := by
  have whole : manifest.declared = [] ++ manifest.declared := rfl
  have fresh : manifest.Knows [] := fun _ _ _ _ _ nothing => nomatch nothing
  simp only [buildView, if_true, Logged.bind_value, Logged.foldlM_value]
  have same := (outcomes_eq buildable whole ⟨known, [], 0⟩ knows (by simp)).trans
    (outcomes_eq buildable whole ⟨[], [], 0⟩ fresh (by simp)).symm
  rw [same]
  rfl

end AppManifest

namespace ManifestCache

variable {cache : ManifestCache} {manifest : AppManifest}

theorem manifest_hit {includeSchemas : Bool} {view : ManifestView}
    (found : cache.view? manifest.appName includeSchemas = some view) :
    (ManifestCache.manifest manifest includeSchemas).run cache = ⟨(.ok view, cache), []⟩ := by
  simp only [ManifestCache.manifest, StateT.run]
  unfold view? at found
  rw [found]
  rfl

theorem manifest_fails {includeSchemas : Bool} (missing : cache.view? manifest.appName includeSchemas = none)
    {error : ManifestError} (unresolved : manifest.resolveGroup = .error error) :
    (ManifestCache.manifest manifest includeSchemas).run cache = ⟨(.error error, cache), []⟩ := by
  unfold view? at missing
  simp only [ManifestCache.manifest, StateT.run, missing, unresolved]
  rfl

/-- A view that is asked for the first time is built from the schemas known to its app, and kept with those
known afterwards. -/
theorem manifest_built {includeSchemas : Bool} (missing : cache.view? manifest.appName includeSchemas = none)
    {group : String} (resolved : manifest.resolveGroup = .ok group) :
    let entry := cache.entry manifest.appName
    let built := manifest.buildView group includeSchemas entry.schemas
    (ManifestCache.manifest manifest includeSchemas).run cache =
      ⟨(.ok built.value.1,
        { entries := cache.entries.insert manifest.appName
            (({ entry with schemas := built.value.2.known } : CacheEntry).setView includeSchemas built.value.1)
          manifestBuilds := cache.manifestBuilds + 1
          schemaBuilds := cache.schemaBuilds + built.value.2.builds }), built.warnings⟩ := by
  unfold view? at missing
  simp only [ManifestCache.manifest, StateT.run, missing, resolved, bind, pure, List.append_nil]

/-- The view of a manifest that is asked for the first time is kept, and nothing of other apps changes. -/
theorem manifest_miss (missing : cache.view? manifest.appName true = none) {group : String}
    (resolved : manifest.resolveGroup = .ok group) :
    let view := (manifest.buildView group true (cache.entry manifest.appName).schemas).value.1
    let result := ((ManifestCache.manifest manifest true).run cache).value
    result.1 = .ok view ∧
      (∀ app, result.2.view? app true = if app = manifest.appName then some view else cache.view? app true) ∧
      ∀ app kind version, app ≠ manifest.appName →
        result.2.stored? app kind version = cache.stored? app kind version := by
  rw [manifest_built missing resolved]
  refine ⟨rfl, fun app => ?_, fun app kind version different => ?_⟩
  · simp only [view?, Table.lookup_insert]
    split
    · rfl
    · rfl
  · simp only [stored?, Table.lookup_insert, if_neg different]

end ManifestCache

end ResourceKinds
