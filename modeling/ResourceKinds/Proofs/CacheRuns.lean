import ResourceKinds.Cache
import ResourceKinds.Proofs.Result
import ResourceKinds.Proofs.Tables

namespace ResourceKinds

/-- From every cache with the one property the run ends with an answer and a cache that have the other. -/
def Ensures {α : Type} (before : ManifestCache → Prop) (computation : CacheM α)
    (after : α → ManifestCache → Prop) : Prop :=
  ∀ cache, before cache → after (computation.run cache).value.1 (computation.run cache).value.2

namespace Ensures

variable {α β : Type} {before : ManifestCache → Prop}

theorem pure {value : α} {after : α → ManifestCache → Prop} (holds : ∀ cache, before cache → after value cache) :
    Ensures before (Pure.pure value) after := holds

theorem bind {first : CacheM α} {next : α → CacheM β} {middle : α → ManifestCache → Prop}
    {after : β → ManifestCache → Prop} (start : Ensures before first middle)
    (rest : ∀ value, Ensures (middle value) (next value) after) : Ensures before (first >>= next) after :=
  fun cache holds => rest _ _ (start cache holds)

/-- What is known of an answer may be used as a fact about the rest of the run. -/
theorem given {fact : Prop} {computation : CacheM α} {after : α → ManifestCache → Prop}
    (ensures : fact → Ensures before computation after) :
      Ensures (fun cache => fact ∧ before cache) computation after :=
  fun cache holds => ensures holds.1 cache holds.2

theorem logged {computation : Logged α} {after : α → ManifestCache → Prop}
    (holds : ∀ cache, before cache → after computation.value cache) : Ensures before (liftM computation) after := holds

end Ensures

namespace ManifestCache

/-- The schema that is kept for a version of a kind under an app name. -/
def stored? (cache : ManifestCache) (app kind version : String) : Option Synthesized :=
  (cache.entries.lookup app).bind (·.schemas.lookup ⟨version, kind⟩)

def view? (cache : ManifestCache) (app : String) (includeSchemas : Bool) : Option ManifestView :=
  (cache.entries.lookup app).bind (·.view? includeSchemas)

theorem stored?_eq (cache : ManifestCache) (app kind version : String) :
    cache.stored? app kind version = (cache.entry app).schemas.lookup ⟨version, kind⟩ := by
  cases found : cache.entries.lookup app <;> simp [stored?, entry, found, CacheEntry.empty, Table.lookup]

theorem view?_eq (cache : ManifestCache) (app : String) (includeSchemas : Bool) :
    cache.view? app includeSchemas = (cache.entry app).view? includeSchemas := by
  cases found : cache.entries.lookup app <;> simp [view?, entry, found, CacheEntry.empty, CacheEntry.view?]

theorem entry_of_insert {cache next : ManifestCache} {app : String} {entry : CacheEntry}
    (inserts : next.entries = cache.entries.insert app entry) (other : String) :
    next.entry other = if other = app then entry else cache.entry other := by
  rw [ManifestCache.entry, inserts, Table.lookup_insert]
  split <;> rfl

theorem entry_setEntry (cache : ManifestCache) (app other : String) (entry : CacheEntry) :
    (cache.setEntry app entry).entry other = if other = app then entry else cache.entry other :=
  entry_of_insert rfl other

/-- A schema that is kept from now on changes nothing else. -/
theorem stored?_setEntry_insert (cache : ManifestCache) (app kind version : String) (synthesized : Synthesized)
    (other name later : String) :
    (cache.setEntry app { cache.entry app with
      schemas := (cache.entry app).schemas.insert ⟨version, kind⟩ synthesized }).stored? other name later =
      if other = app ∧ name = kind ∧ later = version then some synthesized else cache.stored? other name later := by
  simp only [stored?_eq, entry_setEntry]
  by_cases here : other = app
  · subst here
    simp only [if_true, true_and, Table.lookup_insert, SchemaKey.mk.injEq, and_comm]
  · simp [here]

theorem view?_setEntry_schemas (cache : ManifestCache) (app : String) (schemas : Table SchemaKey Synthesized)
    (other : String) (includeSchemas : Bool) :
    (cache.setEntry app { cache.entry app with schemas := schemas }).view? other includeSchemas =
      cache.view? other includeSchemas := by
  simp only [view?_eq, entry_setEntry]
  by_cases here : other = app
  · subst here
    simp [CacheEntry.view?]
  · simp [here]

@[simp] theorem view?_empty (app : String) (includeSchemas : Bool) : empty.view? app includeSchemas = none := rfl

end ManifestCache

namespace AppManifest

/-- The schema that the manifest alone gives to a version of a kind. -/
def schemaOf (manifest : AppManifest) (kind version : String) : Except Error Synthesized :=
  match manifest.resolveGroup with
  | .error error => .error (.manifest error)
  | .ok _ => match manifest.kindVersion? kind version with
    | none => .error (.schema (.kindVersionNotFound kind version))
    | some declared => (declared.schema.synthesize kind version).mapError .schema

theorem schemaOf_eq_ok {manifest : AppManifest} {kind version : String} {synthesized : Synthesized} :
    manifest.schemaOf kind version = .ok synthesized ↔ (∃ group, manifest.resolveGroup = .ok group) ∧
      ∃ declared, manifest.kindVersion? kind version = some declared ∧
        declared.schema.synthesize kind version = .ok synthesized := by
  unfold schemaOf
  cases manifest.resolveGroup with
  | error error => simp
  | ok group =>
    cases manifest.kindVersion? kind version with
    | none => simp
    | some declared => simp [mapError_eq_ok]

end AppManifest

namespace ManifestCache

variable {cache : ManifestCache} {manifest : AppManifest} {kind version : String}

theorem kindVersionSchema_hit {synthesized : Synthesized}
    (found : cache.stored? manifest.appName kind version = some synthesized) :
    (kindVersionSchema manifest kind version).run cache = ⟨(.ok synthesized, cache), []⟩ := by
  simp only [kindVersionSchema, StateT.run]
  unfold stored? at found
  rw [found]
  rfl

/-- What is asked for the first time is what the manifest alone gives, and it is kept unless it is a failure. -/
theorem kindVersionSchema_miss (missing : cache.stored? manifest.appName kind version = none) :
    let result := ((kindVersionSchema manifest kind version).run cache).value
    result.1 = manifest.schemaOf kind version ∧
      (∀ app name other, result.2.stored? app name other =
        if app = manifest.appName ∧ name = kind ∧ other = version then (manifest.schemaOf kind version).toOption
        else cache.stored? app name other) ∧
      ∀ app includeSchemas, result.2.view? app includeSchemas = cache.view? app includeSchemas := by
  have same (app name other : String) : cache.stored? app name other =
      if app = manifest.appName ∧ name = kind ∧ other = version then none else cache.stored? app name other := by
    split
    · rename_i here
      obtain ⟨rfl, rfl, rfl⟩ := here
      exact missing
    · rfl
  simp only [kindVersionSchema, StateT.run, AppManifest.schemaOf]
  rw [stored?] at missing
  rw [missing]
  cases manifest.resolveGroup with
  | error error => exact ⟨rfl, same, fun _ _ => rfl⟩
  | ok group =>
    cases manifest.kindVersion? kind version with
    | none => exact ⟨rfl, same, fun _ _ => rfl⟩
    | some declared =>
      cases built : declared.schema.synthesize kind version with
      | error error =>
        refine ⟨by simp only [built]; rfl, fun app name other => ?_, fun app includeSchemas => ?_⟩
        · simp only [built]
          exact same app name other
        · simp only [built]
          rfl
      | ok synthesized =>
        refine ⟨by simp only [built]; rfl, fun app name other => ?_, fun app includeSchemas => ?_⟩
        · simp only [built]
          exact stored?_setEntry_insert { cache with schemaBuilds := cache.schemaBuilds + 1 } _ _ _ _ _ _ _
        · simp only [built]
          exact view?_setEntry_schemas { cache with schemaBuilds := cache.schemaBuilds + 1 } _ _ _ _

/-- What a call for the schema of a version of a kind returns: the one that is kept, or else what the manifest
alone gives. -/
def answer (cache : ManifestCache) (manifest : AppManifest) (kind version : String) : Except Error Synthesized :=
  match cache.stored? manifest.appName kind version with
  | some synthesized => .ok synthesized
  | none => manifest.schemaOf kind version

/-- The cache answers every call for a schema of the manifest like this. -/
def Answers (manifest : AppManifest) (answers : String → String → Except Error Synthesized) (cache : ManifestCache) :
    Prop := ∀ kind version, cache.answer manifest kind version = answers kind version

/-- A call for a schema changes no answer, neither that of the same call made again nor that of another one. -/
theorem kindVersionSchema_answers {answers : String → String → Except Error Synthesized} (kind version : String) :
    Ensures (Answers manifest answers) (kindVersionSchema manifest kind version) fun answer cache =>
      answer = answers kind version ∧ Answers manifest answers cache := by
  intro cache same
  have asked := same kind version
  unfold answer at asked
  cases found : cache.stored? manifest.appName kind version with
  | some synthesized =>
    rw [found] at asked
    rw [kindVersionSchema_hit found]
    exact ⟨asked, same⟩
  | none =>
    rw [found] at asked
    obtain ⟨answered, stored, _⟩ := kindVersionSchema_miss found
    refine ⟨answered.trans asked, fun name other => ?_⟩
    rw [answer, stored]
    by_cases here : name = kind ∧ other = version
    · obtain ⟨rfl, rfl⟩ := here
      rw [if_pos ⟨rfl, rfl, rfl⟩, ← asked]
      cases manifest.schemaOf name other <;> rfl
    · rw [if_neg fun all => here all.2]
      exact same name other

/-- What is kept for the versions that the manifest declares is what the manifest alone gives them. -/
def Faithful (manifest : AppManifest) (cache : ManifestCache) : Prop :=
  ∀ kind version synthesized, (manifest.kindVersion? kind version).isSome = true →
    cache.stored? manifest.appName kind version = some synthesized → manifest.schemaOf kind version = .ok synthesized

theorem faithful_empty (manifest : AppManifest) : Faithful manifest empty := by
  intro kind version synthesized _ found
  cases found

/-- A faithful cache answers as the manifest alone would, and stays faithful. -/
theorem kindVersionSchema_faithful (declared : (manifest.kindVersion? kind version).isSome = true) :
    Ensures (Faithful manifest) (kindVersionSchema manifest kind version) fun answer cache =>
      answer = manifest.schemaOf kind version ∧ Faithful manifest cache := by
  intro cache faithful
  cases found : cache.stored? manifest.appName kind version with
  | some synthesized =>
    rw [kindVersionSchema_hit found]
    exact ⟨(faithful kind version synthesized declared found).symm, faithful⟩
  | none =>
    obtain ⟨answered, stored, _⟩ := kindVersionSchema_miss found
    refine ⟨answered, fun name other synthesized known kept => ?_⟩
    rw [stored] at kept
    split at kept
    · rename_i here
      obtain ⟨_, rfl, rfl⟩ := here
      cases own : manifest.schemaOf name other with
      | error error => rw [own] at kept; cases kept
      | ok schema => rw [own] at kept; exact congrArg Except.ok (Option.some.inj kept)
    · exact faithful name other synthesized known kept

end ManifestCache

end ResourceKinds
