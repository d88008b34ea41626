import Mathlib.Data.Set.Insert
import ResourceKinds.Proofs.SchemaAttempts

namespace ResourceKinds

inductive CacheCall where
  | view (manifest : AppManifest) (includeSchemas : Bool)
  | schema (manifest : AppManifest) (kind version : String)

inductive CacheAnswer where
  | view (answer : Except ManifestError ManifestView)
  | schema (answer : Except Error Synthesized)

namespace ManifestCache

def kept (cache : ManifestCache) : KeptSchemas := fun key => cache.stored? key.1 key.2.kind key.2.version

/-- The keys that there is a view of. -/
def viewKeys (cache : ManifestCache) : Set (String × Bool) := {key | (cache.view? key.1 key.2).isSome = true}

def schemaKeys (cache : ManifestCache) : Set (String × SchemaKey) := {key | (cache.kept key).isSome = true}

/-- There is a view or a schema of the app. -/
def HasApp (cache : ManifestCache) (app : String) : Prop :=
  (∃ includeSchemas, (cache.view? app includeSchemas).isSome = true) ∨ ∃ key, (cache.kept (app, key)).isSome = true

theorem kept_eq (cache : ManifestCache) (app : String) (key : SchemaKey) :
    cache.kept (app, key) = (cache.entry app).schemas.lookup key :=
  stored?_eq cache app key.kind key.version

theorem HasApp.mem_keys {cache : ManifestCache} {app : String} (has : cache.HasApp app) :
    app ∈ Table.keys cache.entries := by
  refine Decidable.byContradiction fun outside => ?_
  have absent := Table.lookup_eq_none.mpr outside
  obtain ⟨includeSchemas, kept⟩ | ⟨key, kept⟩ := has
  · simp [view?, absent] at kept
  · simp [ManifestCache.kept, stored?, absent] at kept

end ManifestCache

namespace CacheCall

def perform : CacheCall → CacheM CacheAnswer
  | .view manifest includeSchemas => return .view (← ManifestCache.manifest manifest includeSchemas)
  | .schema manifest kind version => return .schema (← ManifestCache.kindVersionSchema manifest kind version)

/-- The attempts at a synthesis that the call makes. -/
def attempts (cache : ManifestCache) : CacheCall → List Attempt
  | .view manifest includeSchemas =>
    match cache.view? manifest.appName includeSchemas, manifest.resolveGroup with
    | none, .ok _ =>
      if includeSchemas then
        ViewBuild.attempts ⟨(cache.entry manifest.appName).schemas, [], 0⟩ manifest.appName manifest.declared
      else []
    | _, _ => []
  | .schema manifest kind version =>
    match cache.stored? manifest.appName kind version, manifest.resolveGroup, manifest.kindVersion? kind version with
    | none, .ok _, some declared => [⟨manifest.appName, kind, version, declared.schema⟩]
    | _, _, _ => []

theorem perform_view (cache : ManifestCache) (manifest : AppManifest) (includeSchemas : Bool) :
    let result := (ManifestCache.manifest manifest includeSchemas).run cache
    (perform (.view manifest includeSchemas)).run cache =
      ⟨(.view result.value.1, result.value.2), result.warnings⟩ := by
  simp only [perform, StateT.run_bind, StateT.run_pure]
  simp only [bind, pure, List.append_nil]

theorem perform_schema (cache : ManifestCache) (manifest : AppManifest) (kind version : String) :
    let result := (ManifestCache.kindVersionSchema manifest kind version).run cache
    (perform (.schema manifest kind version)).run cache =
      ⟨(.schema result.value.1, result.value.2), result.warnings⟩ := by
  simp only [perform, StateT.run_bind, StateT.run_pure]
  simp only [bind, pure, List.append_nil]

end CacheCall

/-- What a call can do to a cache: it tries to synthesize what is not kept, and it keeps at most one view,
which is of a key that there was no view of. -/
structure CacheStep (cache : ManifestCache) (made : List Attempt) (next : ManifestCache) : Prop where
  attempts : Attempts cache.kept made next.kept
  schemaBuilds : next.schemaBuilds = cache.schemaBuilds + made.length
  views : (∀ app includeSchemas, next.view? app includeSchemas = cache.view? app includeSchemas) ∧
      next.manifestBuilds = cache.manifestBuilds ∨
    ∃ app includeSchemas view, cache.view? app includeSchemas = none ∧
      (∀ key synthesized, view.schemas.lookup key = some (.ok synthesized) → next.kept (app, key) = some synthesized) ∧
      (∀ other mode, next.view? other mode =
        if other = app ∧ mode = includeSchemas then some view else cache.view? other mode) ∧
      next.manifestBuilds = cache.manifestBuilds + 1
  entries : next.entries = cache.entries ∨
    ∃ app entry, next.entries = cache.entries.insert app entry ∧ next.HasApp app

namespace ManifestCache

variable {cache next : ManifestCache} {app : String}

theorem kept_of_insert {entry : CacheEntry} (inserts : next.entries = cache.entries.insert app entry)
    (key : String × SchemaKey) :
    next.kept key = if key.1 = app then entry.schemas.lookup key.2 else cache.kept key := by
  rw [kept_eq, entry_of_insert inserts]
  split
  · rfl
  · rw [kept_eq]

theorem view?_of_insert {entry : CacheEntry} (inserts : next.entries = cache.entries.insert app entry)
    (other : String) (includeSchemas : Bool) :
    next.view? other includeSchemas =
      if other = app then entry.view? includeSchemas else cache.view? other includeSchemas := by
  rw [view?_eq, entry_of_insert inserts, view?_eq]
  split <;> rfl

end ManifestCache

namespace CacheEntry

theorem view?_setView (entry : CacheEntry) (includeSchemas mode : Bool) (view : ManifestView) :
    (entry.setView includeSchemas view).view? mode = if mode = includeSchemas then some view else entry.view? mode := by
  cases includeSchemas <;> cases mode <;> rfl

theorem schemas_setView (entry : CacheEntry) (includeSchemas : Bool) (view : ManifestView) :
    (entry.setView includeSchemas view).schemas = entry.schemas := by
  cases includeSchemas <;> rfl

end CacheEntry

/-- The view has the schemas known to its build, and the build has made the attempts of the declared versions. -/
theorem AppManifest.buildView_attempts (manifest : AppManifest) (group : String) (includeSchemas : Bool)
    (known : Table SchemaKey Synthesized) (app : String) (others : KeptSchemas) :
    let start : ViewBuild := ⟨known, [], 0⟩
    let made := if includeSchemas then start.attempts app manifest.declared else []
    let built := manifest.buildView group includeSchemas known
    Attempts (start.kept app others) made (built.value.2.kept app others) ∧ built.value.2.builds = made.length ∧
      built.warnings = made.flatMap Attempt.warnings ∧
      ∀ key synthesized, built.value.1.schemas.lookup key = some (.ok synthesized) →
        built.value.2.known.lookup key = some synthesized := by
  cases includeSchemas with
  | false => exact ⟨.nil, rfl, rfl, nofun⟩
  | true =>
    obtain ⟨made, counted, warned⟩ := ViewBuild.foldlM_attempts ⟨known, [], 0⟩ app others manifest.declared
    have sound : ViewBuild.Sound ⟨known, [], 0⟩ := nofun
    simp only [buildView, if_true, Logged.bind_value, Logged.bind_warnings]
    exact ⟨made, by simpa [pure] using counted, by simpa [pure] using warned, ViewBuild.foldlM_sound sound _⟩

namespace CacheStep

variable {cache : ManifestCache}

theorem refl (cache : ManifestCache) : CacheStep cache [] cache :=
  ⟨.nil, rfl, .inl ⟨fun _ _ => rfl, rfl⟩, .inl rfl⟩

/-- A view is kept beside the schemas known to its build. -/
theorem keepView {app : String} {includeSchemas : Bool} (missing : cache.view? app includeSchemas = none)
    {build : ViewBuild} {made : List Attempt} (attempts : Attempts cache.kept made (build.kept app cache.kept))
    (counted : build.builds = made.length) {view : ManifestView} (sound : ∀ key synthesized,
      view.schemas.lookup key = some (.ok synthesized) → build.known.lookup key = some synthesized) :
    let entry := ({ cache.entry app with schemas := build.known } : CacheEntry).setView includeSchemas view
    let next : ManifestCache :=
      ⟨cache.entries.insert app entry, cache.manifestBuilds + 1, cache.schemaBuilds + build.builds⟩
    CacheStep cache made next ∧ next.view? app includeSchemas = some view := by
  intro entry next
  have inserts : next.entries = cache.entries.insert app entry := rfl
  have kept : next.kept = build.kept app cache.kept := by
    funext key
    rw [ManifestCache.kept_of_insert inserts, CacheEntry.schemas_setView]
    rfl
  have views (other : String) (mode : Bool) : next.view? other mode =
      if other = app ∧ mode = includeSchemas then some view else cache.view? other mode := by
    rw [ManifestCache.view?_of_insert inserts, CacheEntry.view?_setView, ManifestCache.view?_eq]
    by_cases here : other = app
    · subst here
      simp [CacheEntry.view?]
    · simp [here]
  have viewed : next.view? app includeSchemas = some view := by simp [views]
  refine ⟨⟨by rwa [kept], congrArg _ counted, .inr ⟨app, includeSchemas, view, missing, ?_, views, rfl⟩,
    .inr ⟨app, entry, inserts, .inl ⟨includeSchemas, by simp [viewed]⟩⟩⟩, viewed⟩
  intro key synthesized found
  rw [kept, ViewBuild.kept, if_pos rfl]
  exact sound key synthesized found

theorem view (cache : ManifestCache) (manifest : AppManifest) (includeSchemas : Bool) :
    let made := CacheCall.attempts cache (.view manifest includeSchemas)
    let result := (ManifestCache.manifest manifest includeSchemas).run cache
    CacheStep cache made result.value.2 ∧ result.warnings = made.flatMap Attempt.warnings ∧
      ∀ view, result.value.1 = .ok view → result.value.2.view? manifest.appName includeSchemas = some view := by
  cases found : cache.view? manifest.appName includeSchemas with
  | some view =>
    rw [ManifestCache.manifest_hit found]
    simp only [CacheCall.attempts, found]
    refine ⟨refl cache, rfl, fun view same => ?_⟩
    exact congrArg some (Except.ok.inj same)
  | none =>
    cases resolved : manifest.resolveGroup with
    | error error =>
      rw [ManifestCache.manifest_fails found resolved]
      simp only [CacheCall.attempts, found, resolved]
      exact ⟨refl cache, rfl, fun _ failed => by cases failed⟩
    | ok group =>
      have same : (ViewBuild.mk (cache.entry manifest.appName).schemas [] 0).kept manifest.appName cache.kept =
          cache.kept := by
        funext place
        obtain ⟨app, key⟩ := place
        unfold ViewBuild.kept
        split
        · rename_i here
          rw [ManifestCache.kept_eq, ← here]
        · rfl
      obtain ⟨made, counted, warned, sound⟩ := manifest.buildView_attempts group includeSchemas
        (cache.entry manifest.appName).schemas manifest.appName cache.kept
      rw [same] at made
      obtain ⟨step, viewed⟩ := keepView found made counted sound
      rw [ManifestCache.manifest_built found resolved]
      simp only [CacheCall.attempts, found, resolved]
      refine ⟨step, warned, fun view same => ?_⟩
      obtain rfl := Except.ok.inj same
      exact viewed

theorem failed {attempt : Attempt} (missing : cache.kept attempt.key = none) {error : SchemaError}
    (outcome : attempt.outcome = .error error) :
    CacheStep cache [attempt] { cache with schemaBuilds := cache.schemaBuilds + 1 } := by
  refine ⟨.cons missing ?_, rfl, .inl ⟨fun _ _ => rfl, rfl⟩, .inl rfl⟩
  have same : attempt.keep cache.kept = cache.kept := by
    funext key
    unfold Attempt.keep
    split
    · rename_i here
      rw [here, missing, outcome]
      rfl
    · rfl
  rw [same]
  exact .nil

theorem keepSchema {attempt : Attempt} (missing : cache.kept attempt.key = none) {synthesized : Synthesized}
    (outcome : attempt.outcome = .ok synthesized) :
    let entry := cache.entry attempt.app
    let next : ManifestCache := ({ cache with schemaBuilds := cache.schemaBuilds + 1 } : ManifestCache).setEntry
      attempt.app { entry with schemas := entry.schemas.insert ⟨attempt.version, attempt.kind⟩ synthesized }
    CacheStep cache [attempt] next ∧ next.kept attempt.key = some synthesized := by
  intro entry next
  have kept : next.kept = attempt.keep cache.kept := by
    funext place
    obtain ⟨app, version, kind⟩ := place
    have inserted := ManifestCache.stored?_setEntry_insert { cache with schemaBuilds := cache.schemaBuilds + 1 }
      attempt.app attempt.kind attempt.version synthesized app kind version
    refine inserted.trans ?_
    rw [Attempt.keep, outcome]
    refine if_congr ?_ rfl rfl
    simp only [Attempt.key, Prod.mk.injEq, SchemaKey.mk.injEq, and_comm]
  have found : next.kept attempt.key = some synthesized := by
    rw [kept]
    exact (Attempt.keep_eq_some missing).mpr (.inr ⟨rfl, outcome⟩)
  refine ⟨⟨.cons missing ?_, rfl, .inl ⟨fun app mode => ?_, rfl⟩,
    .inr ⟨attempt.app, _, rfl, .inr ⟨_, Option.isSome_iff_exists.mpr ⟨_, found⟩⟩⟩⟩, found⟩
  · rw [← kept]
    exact .nil
  · exact ManifestCache.view?_setEntry_schemas { cache with schemaBuilds := cache.schemaBuilds + 1 } _ _ _ _

theorem schema (cache : ManifestCache) (manifest : AppManifest) (kind version : String) :
    let made := CacheCall.attempts cache (.schema manifest kind version)
    let result := (ManifestCache.kindVersionSchema manifest kind version).run cache
    CacheStep cache made result.value.2 ∧ result.warnings = made.flatMap Attempt.warnings ∧
      ∀ synthesized, result.value.1 = .ok synthesized →
        result.value.2.stored? manifest.appName kind version = some synthesized := by
  cases found : cache.stored? manifest.appName kind version with
  | some synthesized =>
    rw [ManifestCache.kindVersionSchema_hit found]
    simp only [CacheCall.attempts, found]
    exact ⟨refl cache, rfl, fun again same => congrArg some (Except.ok.inj same)⟩
  | none =>
    have missing := found
    rw [ManifestCache.stored?] at found
    simp only [ManifestCache.kindVersionSchema, StateT.run, CacheCall.attempts, missing]
    rw [found]
    cases manifest.resolveGroup with
    | error error => exact ⟨refl cache, rfl, fun _ failed => by cases failed⟩
    | ok group =>
      cases manifest.kindVersion? kind version with
      | none => exact ⟨refl cache, rfl, fun _ failed => by cases failed⟩
      | some declared =>
        let attempt : Attempt := ⟨manifest.appName, kind, version, declared.schema⟩
        have unkept : cache.kept attempt.key = none := missing
        cases built : declared.schema.synthesize kind version with
        | error error =>
          simp only [built]
          exact ⟨failed unkept built, by simp [Attempt.warnings], fun _ failed => by cases failed⟩
        | ok synthesized =>
          obtain ⟨step, kept⟩ := keepSchema unkept built
          simp only [built]
          refine ⟨step, by simp [Attempt.warnings], fun again same => ?_⟩
          obtain rfl := Except.ok.inj same
          exact kept

theorem perform (cache : ManifestCache) (call : CacheCall) :
    let made := call.attempts cache
    let result := call.perform.run cache
    CacheStep cache made result.value.2 ∧ result.warnings = made.flatMap Attempt.warnings := by
  cases call with
  | view manifest includeSchemas =>
    rw [CacheCall.perform_view]
    obtain ⟨step, warned, _⟩ := view cache manifest includeSchemas
    exact ⟨step, warned⟩
  | schema manifest kind version =>
    rw [CacheCall.perform_schema]
    obtain ⟨step, warned, _⟩ := schema cache manifest kind version
    exact ⟨step, warned⟩

/-- A view that is returned is kept. -/
theorem returned_view {manifest : AppManifest} {includeSchemas : Bool} {view : ManifestView}
    (returned : ((CacheCall.perform (.view manifest includeSchemas)).run cache).value.1 = .view (.ok view)) :
    ((CacheCall.perform (.view manifest includeSchemas)).run cache).value.2.view? manifest.appName includeSchemas =
      some view := by
  rw [CacheCall.perform_view] at returned ⊢
  exact (CacheStep.view cache manifest includeSchemas).2.2 view (CacheAnswer.view.inj returned)

theorem returned_schema {manifest : AppManifest} {kind version : String} {synthesized : Synthesized}
    (returned : ((CacheCall.perform (.schema manifest kind version)).run cache).value.1 = .schema (.ok synthesized)) :
    ((CacheCall.perform (.schema manifest kind version)).run cache).value.2.stored? manifest.appName kind version =
      some synthesized := by
  rw [CacheCall.perform_schema] at returned ⊢
  exact (CacheStep.schema cache manifest kind version).2.2 synthesized (CacheAnswer.schema.inj returned)

variable {next : ManifestCache} {made : List Attempt}

theorem view?_stays (step : CacheStep cache made next) {app : String} {includeSchemas : Bool} {view : ManifestView}
    (found : cache.view? app includeSchemas = some view) : next.view? app includeSchemas = some view := by
  obtain ⟨same, _⟩ | ⟨added, mode, _, missing, _, views, _⟩ := step.views
  · rw [same, found]
  · rw [views, if_neg, found]
    rintro ⟨rfl, rfl⟩
    rw [missing] at found
    cases found

theorem hasApp_stays (step : CacheStep cache made next) {app : String} (has : cache.HasApp app) : next.HasApp app := by
  obtain ⟨includeSchemas, kept⟩ | ⟨key, kept⟩ := has
  · obtain ⟨view, found⟩ := Option.isSome_iff_exists.mp kept
    exact .inl ⟨includeSchemas, Option.isSome_iff_exists.mpr ⟨view, step.view?_stays found⟩⟩
  · obtain ⟨synthesized, found⟩ := Option.isSome_iff_exists.mp kept
    exact .inr ⟨key, Option.isSome_iff_exists.mpr ⟨synthesized, step.attempts.stays found⟩⟩

/-- A view that is built is one of a key that there was none of. -/
theorem viewKeys (step : CacheStep cache made next) :
    next.viewKeys = cache.viewKeys ∧ next.manifestBuilds = cache.manifestBuilds ∨
      ∃ key, key ∉ cache.viewKeys ∧ next.viewKeys = insert key cache.viewKeys ∧
        next.manifestBuilds = cache.manifestBuilds + 1 := by
  obtain ⟨same, unbuilt⟩ | ⟨app, includeSchemas, view, missing, _, views, built⟩ := step.views
  · refine .inl ⟨?_, unbuilt⟩
    ext key
    simp only [ManifestCache.viewKeys, same]
  · refine .inr ⟨(app, includeSchemas), by simp [ManifestCache.viewKeys, missing], ?_, built⟩
    ext ⟨other, mode⟩
    simp only [ManifestCache.viewKeys, views, Set.mem_ofPred_eq, Set.mem_insert_iff, Prod.mk.injEq]
    split <;> simp [*]

theorem ascending (step : CacheStep cache made next) (ascending : Table.Ascending cache.entries) :
    Table.Ascending next.entries := by
  obtain same | ⟨app, entry, inserts, _⟩ := step.entries
  · rwa [same]
  · rw [inserts]
    exact Table.ascending_insert ascending

/-- No app has an entry of which nothing is kept. -/
theorem hasApp (step : CacheStep cache made next) (has : ∀ app ∈ Table.keys cache.entries, cache.HasApp app) :
    ∀ app ∈ Table.keys next.entries, next.HasApp app := by
  intro app inside
  obtain same | ⟨added, entry, inserts, new⟩ := step.entries
  · rw [same] at inside
    exact step.hasApp_stays (has app inside)
  · rw [inserts] at inside
    obtain ⟨member, among, rfl⟩ := List.mem_map.mp inside
    rcases Table.mem_insert among with rfl | old
    · exact new
    · exact step.hasApp_stays (has _ (List.mem_map_of_mem old))

theorem inViews (step : CacheStep cache made next) (inViews : ∀ app includeSchemas view,
      cache.view? app includeSchemas = some view → ∀ key synthesized,
        view.schemas.lookup key = some (.ok synthesized) → cache.kept (app, key) = some synthesized) :
    ∀ app includeSchemas view, next.view? app includeSchemas = some view → ∀ key synthesized,
      view.schemas.lookup key = some (.ok synthesized) → next.kept (app, key) = some synthesized := by
  intro app includeSchemas view found key synthesized has
  obtain ⟨same, _⟩ | ⟨added, mode, built, _, sound, views, _⟩ := step.views
  · rw [same] at found
    exact step.attempts.stays (inViews app includeSchemas view found key synthesized has)
  · rw [views] at found
    split at found
    · rename_i here
      obtain ⟨rfl, rfl⟩ := here
      obtain rfl := Option.some.inj found
      exact sound key synthesized has
    · exact step.attempts.stays (inViews app includeSchemas view found key synthesized has)

end CacheStep

end ResourceKinds
