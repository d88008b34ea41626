import ResourceKinds.Proofs.CacheOrder

namespace ResourceKinds

/-- What the call has failed with, if it has. -/
def CacheAnswer.error? : CacheAnswer → Option Error
  | .view (.error error) => some (.manifest error)
  | .schema (.error error) => some error
  | _ => none

/-- The error is that of the synthesis that the call asks for. -/
inductive CacheCall.TriesInVain : CacheCall → Error → Prop
  | schema {manifest kind version declared error} (found : manifest.kindVersion? kind version = some declared)
      (fails : declared.schema.synthesize kind version = .error error) :
      TriesInVain (.schema manifest kind version) (.schema error)

/-- What comes of a call, and the cache that it leaves. -/
inductive CacheCall.Comes (cache : ManifestCache) : CacheCall → CacheAnswer → ManifestCache → Prop
  | viewKept {manifest includeSchemas view} (found : cache.view? manifest.appName includeSchemas = some view) :
      Comes cache (.view manifest includeSchemas) (.view (.ok view)) cache
  | viewRefused {manifest includeSchemas error} (missing : cache.view? manifest.appName includeSchemas = none)
      (unresolved : manifest.resolveGroup = .error error) :
      Comes cache (.view manifest includeSchemas) (.view (.error error)) cache
  | viewBuilt {manifest includeSchemas group view next} (missing : cache.view? manifest.appName includeSchemas = none)
      (resolved : manifest.resolveGroup = .ok group) :
      Comes cache (.view manifest includeSchemas) (.view (.ok view)) next
  | schemaKept {manifest kind version synthesized}
      (found : cache.stored? manifest.appName kind version = some synthesized) :
      Comes cache (.schema manifest kind version) (.schema (.ok synthesized)) cache
  | schemaRefused {manifest kind version error} (missing : cache.stored? manifest.appName kind version = none)
      (unresolved : manifest.resolveGroup = .error error) :
      Comes cache (.schema manifest kind version) (.schema (.error (.manifest error))) cache
  | schemaUnknown {manifest kind version group} (missing : cache.stored? manifest.appName kind version = none)
      (resolved : manifest.resolveGroup = .ok group) (unknown : manifest.kindVersion? kind version = none) :
      Comes cache (.schema manifest kind version) (.schema (.error (.schema (.kindVersionNotFound kind version)))) cache
  | schemaFailed {manifest kind version group declared error}
      (missing : cache.stored? manifest.appName kind version = none) (resolved : manifest.resolveGroup = .ok group)
      (known : manifest.kindVersion? kind version = some declared)
      (fails : declared.schema.synthesize kind version = .error error) :
      Comes cache (.schema manifest kind version) (.schema (.error (.schema error)))
        { cache with schemaBuilds := cache.schemaBuilds + 1 }
  | schemaBuilt {manifest kind version group declared synthesized next}
      (missing : cache.stored? manifest.appName kind version = none) (resolved : manifest.resolveGroup = .ok group)
      (known : manifest.kindVersion? kind version = some declared)
      (succeeds : declared.schema.synthesize kind version = .ok synthesized) :
      Comes cache (.schema manifest kind version) (.schema (.ok synthesized)) next

namespace ManifestCache

variable {cache other : ManifestCache} {call : CacheCall} {error : Error}

theorem perform_comes (cache : ManifestCache) (call : CacheCall) :
    call.Comes cache (call.perform.run cache).value.1 (call.perform.run cache).value.2 := by
  cases call with
  | view manifest includeSchemas =>
    rw [CacheCall.perform_view]
    cases found : cache.view? manifest.appName includeSchemas with
    | some view =>
      rw [manifest_hit found]
      exact .viewKept found
    | none =>
      cases resolved : manifest.resolveGroup with
      | error cause =>
        rw [manifest_fails found resolved]
        exact .viewRefused found resolved
      | ok group =>
        rw [manifest_built found resolved]
        exact .viewBuilt found resolved
  | schema manifest kind version =>
    rw [CacheCall.perform_schema]
    cases found : cache.stored? manifest.appName kind version with
    | some synthesized =>
      rw [kindVersionSchema_hit found]
      exact .schemaKept found
    | none =>
      have missing := found
      rw [stored?] at found
      simp only [kindVersionSchema, StateT.run, found]
      cases resolved : manifest.resolveGroup with
      | error cause => exact .schemaRefused missing resolved
      | ok group =>
        cases known : manifest.kindVersion? kind version with
        | none => exact .schemaUnknown missing resolved known
        | some declared =>
          cases built : declared.schema.synthesize kind version with
          | error cause =>
            simp only [built]
            exact .schemaFailed missing resolved known built
          | ok synthesized =>
            simp only [built]
            exact .schemaBuilt missing resolved known built

/-- A call that fails leaves the cache as it is, but for the count of attempts when a synthesis was tried. -/
theorem perform_failed (failed : (call.perform.run cache).value.1.error? = some error) :
    (call.perform.run cache).value.2 = cache ∧ ¬ call.TriesInVain error ∨
      (call.perform.run cache).value.2 = { cache with schemaBuilds := cache.schemaBuilds + 1 } ∧
        call.TriesInVain error := by
  have comes := perform_comes cache call
  generalize (call.perform.run cache).value.1 = answer at comes failed
  generalize (call.perform.run cache).value.2 = next at comes
  cases comes with
  | viewKept | viewBuilt | schemaKept | schemaBuilt => cases failed
  | viewRefused => exact .inl ⟨rfl, fun tried => by cases tried⟩
  | schemaRefused =>
    obtain rfl := Option.some.inj failed
    exact .inl ⟨rfl, fun tried => by cases tried⟩
  | schemaUnknown _ _ unknown =>
    obtain rfl := Option.some.inj failed
    refine .inl ⟨rfl, fun tried => ?_⟩
    cases tried with
    | schema known => cases unknown.symm.trans known
  | schemaFailed _ _ known fails =>
    obtain rfl := Option.some.inj failed
    exact .inr ⟨rfl, .schema known fails⟩

/-- What a call returns, and what is kept after it, goes by what is kept before it. -/
theorem perform_of_entries (same : cache.entries = other.entries) (call : CacheCall) :
    (call.perform.run cache).value.1 = (call.perform.run other).value.1 ∧
      (call.perform.run cache).value.2.entries = (call.perform.run other).value.2.entries := by
  obtain ⟨entries, manifestBuilds, schemaBuilds⟩ := cache
  obtain ⟨_, otherManifests, otherSchemas⟩ := other
  obtain rfl : entries = _ := same
  cases call with
  | view manifest includeSchemas =>
    simp only [CacheCall.perform_view]
    cases found : view? ⟨entries, manifestBuilds, schemaBuilds⟩ manifest.appName includeSchemas with
    | some view =>
      have foundToo : view? ⟨entries, otherManifests, otherSchemas⟩ manifest.appName includeSchemas = some view := found
      rw [manifest_hit found, manifest_hit foundToo]
      exact ⟨rfl, rfl⟩
    | none =>
      have missing : view? ⟨entries, otherManifests, otherSchemas⟩ manifest.appName includeSchemas = none := found
      cases resolved : manifest.resolveGroup with
      | error cause =>
        rw [manifest_fails found resolved, manifest_fails missing resolved]
        exact ⟨rfl, rfl⟩
      | ok group =>
        rw [manifest_built found resolved, manifest_built missing resolved]
        exact ⟨rfl, rfl⟩
  | schema manifest kind version =>
    rw [CacheCall.perform_schema, CacheCall.perform_schema]
    simp only [kindVersionSchema, StateT.run]
    cases (entries.lookup manifest.appName).bind (·.schemas.lookup ⟨version, kind⟩) with
    | some synthesized => exact ⟨rfl, rfl⟩
    | none =>
      cases manifest.resolveGroup with
      | error cause => exact ⟨rfl, rfl⟩
      | ok group =>
        cases manifest.kindVersion? kind version with
        | none => exact ⟨rfl, rfl⟩
        | some declared =>
          cases built : declared.schema.synthesize kind version with
          | error cause => simp only [built, and_self]
          | ok synthesized =>
            simp only [built, true_and]
            rfl

theorem runAll_of_entries (same : cache.entries = other.entries) (calls : List CacheCall) :
    ((CacheHistory.runAll calls).run cache).value.1 = ((CacheHistory.runAll calls).run other).value.1 := by
  induction calls generalizing cache other with
  | nil => rfl
  | cons call rest ih =>
    obtain ⟨answer, entries⟩ := perform_of_entries same call
    rw [CacheHistory.runAll_cons, CacheHistory.runAll_cons]
    simp only [answer, ih entries]

/-- A call that fails leaves no trace but one more attempt, if it has tried a synthesis and that is what failed. Calls
that come later return what they would return without it. -/
theorem unchanged_of_failed (failed : (call.perform.run cache).value.1.error? = some error) :
    let next := (call.perform.run cache).value.2
    (∀ app includeSchemas, next.view? app includeSchemas = cache.view? app includeSchemas) ∧
    (∀ key, next.kept key = cache.kept key) ∧
    next.size = cache.size ∧ next.manifestBuilds = cache.manifestBuilds ∧
    (¬ call.TriesInVain error → next.schemaBuilds = cache.schemaBuilds) ∧
    (call.TriesInVain error → next.schemaBuilds = cache.schemaBuilds + 1) ∧
    ∀ later : List CacheCall,
      ((CacheHistory.runAll later).run next).value.1 = ((CacheHistory.runAll later).run cache).value.1 := by
  intro next
  obtain ⟨same, untried⟩ | ⟨counted, tried⟩ := perform_failed failed
  · have unchanged : next = cache := same
    rw [unchanged]
    exact ⟨fun _ _ => rfl, fun _ => rfl, rfl, rfl, fun _ => rfl, fun tried => absurd tried untried, fun _ => rfl⟩
  · have unchanged : next = { cache with schemaBuilds := cache.schemaBuilds + 1 } := counted
    have same : next.entries = cache.entries := by rw [unchanged]
    rw [unchanged] at same ⊢
    exact ⟨fun _ _ => rfl, fun _ => rfl, rfl, rfl, fun untried => absurd tried untried, fun _ => rfl,
      runAll_of_entries same⟩

/-- The first version of the lamp has no schema, the second one has. -/
def halfLitLamps : AppManifest :=
  CacheHistory.lamps
    [CacheHistory.lampVersion .empty, { CacheHistory.lampVersion CacheHistory.lampTree with name := "v2" }]

/-- What a call for the second version leaves. -/
def litCache : ManifestCache := (CacheHistory.of [.schema halfLitLamps "Lamp" "v2"]).cache

theorem unchanged_of_failed_lamp :
    let call := CacheCall.schema halfLitLamps "Lamp" "v1"
    let next := (call.perform.run litCache).value.2
    (call.perform.run litCache).value.1.error? = some (.schema (.noRoot "Lamp" "v1")) ∧
      litCache.schemaBuilds = 1 ∧ next.schemaBuilds = 2 ∧
      ∀ later : List CacheCall,
        ((CacheHistory.runAll later).run next).value.1 = ((CacheHistory.runAll later).run litCache).value.1 := by
  have built : litCache.schemaBuilds = 1 := (CacheHistory.sound_of [.schema halfLitLamps "Lamp" "v2"]).schemaBuilds
  have failed : ((CacheCall.schema halfLitLamps "Lamp" "v1").perform.run litCache).value.1.error? =
      some (.schema (.noRoot "Lamp" "v1")) := by
    have resolved : halfLitLamps.resolveGroup = .ok "lamps.dev" := by rfl
    have about : ∀ call ∈ [CacheCall.schema halfLitLamps "Lamp" "v2"], call.manifest = halfLitLamps :=
      List.forall_mem_singleton.mpr rfl
    have first : halfLitLamps.first? "Lamp" "v1" = some (.error (.noRoot "Lamp" "v1")) := by rfl
    have later : halfLitLamps.later? "Lamp" "v1" = some (.error (.noRoot "Lamp" "v1")) := by rfl
    have answer := (CacheHistory.schema_of_runAll resolved about first later).1 (by simp)
    rw [CacheHistory.runAll_cons, CacheHistory.runAll_nil] at answer
    rw [CacheCall.perform_schema]
    exact congrArg (CacheAnswer.error? ∘ .schema) answer
  have tried : (CacheCall.schema halfLitLamps "Lamp" "v1").TriesInVain (.schema (.noRoot "Lamp" "v1")) :=
    .schema rfl (by cbv)
  obtain ⟨-, -, -, -, -, counted, later⟩ := unchanged_of_failed failed
  exact ⟨failed, built, (counted tried).trans (by rw [built]), later⟩

end ManifestCache

end ResourceKinds
