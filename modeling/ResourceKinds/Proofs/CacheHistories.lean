import Mathlib.Data.Set.Card
import ResourceKinds.Proofs.CacheSteps

namespace ResourceKinds

/-- The answer has a schema for a version of a kind of an app, by itself or as part of a view. -/
inductive CacheCall.Gives : CacheCall → CacheAnswer → String × SchemaKey → Synthesized → Prop
  | schema {manifest kind version synthesized} :
      Gives (.schema manifest kind version) (.schema (.ok synthesized)) (manifest.appName, ⟨version, kind⟩) synthesized
  | view {manifest includeSchemas view key synthesized} (has : view.schemas.lookup key = some (.ok synthesized)) :
      Gives (.view manifest includeSchemas) (.view (.ok view)) (manifest.appName, key) synthesized

/-- What has come of the calls so far. -/
structure CacheHistory where
  cache : ManifestCache
  answers : List (CacheCall × CacheAnswer)
  /-- All attempts at a synthesis, oldest first. -/
  attempts : List Attempt

namespace CacheHistory

def empty : CacheHistory := ⟨.empty, [], []⟩

/-- One more call, on the cache that the others have left. -/
def record (history : CacheHistory) (call : CacheCall) : CacheHistory :=
  let result := (call.perform.run history.cache).value
  ⟨result.2, history.answers ++ [(call, result.1)], history.attempts ++ call.attempts history.cache⟩

def of (calls : List CacheCall) : CacheHistory := calls.foldl record empty

/-- What every history has in common. -/
structure Sound (history : CacheHistory) : Prop where
  attempts : Attempts (fun _ => none) history.attempts history.cache.kept
  schemaBuilds : history.cache.schemaBuilds = history.attempts.length
  finite : history.cache.viewKeys.Finite
  manifestBuilds : history.cache.manifestBuilds = history.cache.viewKeys.ncard
  ascending : Table.Ascending history.cache.entries
  hasApp : ∀ app ∈ Table.keys history.cache.entries, history.cache.HasApp app
  inViews : ∀ app includeSchemas view, history.cache.view? app includeSchemas = some view → ∀ key synthesized,
    view.schemas.lookup key = some (.ok synthesized) → history.cache.kept (app, key) = some synthesized
  views : ∀ manifest includeSchemas view,
    (CacheCall.view manifest includeSchemas, CacheAnswer.view (.ok view)) ∈ history.answers →
      history.cache.view? manifest.appName includeSchemas = some view
  schemas : ∀ manifest kind version synthesized,
    (CacheCall.schema manifest kind version, CacheAnswer.schema (.ok synthesized)) ∈ history.answers →
      history.cache.stored? manifest.appName kind version = some synthesized

theorem sound_empty : empty.Sound where
  attempts := .nil
  schemaBuilds := rfl
  finite := by simp [ManifestCache.viewKeys, empty]
  manifestBuilds := by simp [ManifestCache.viewKeys, empty]; rfl
  ascending := by simp [empty, ManifestCache.empty, Table.Ascending, Table.keys]
  hasApp := nofun
  inViews := nofun
  views := nofun
  schemas := nofun

namespace Sound

variable {history : CacheHistory}

/-- One more call adds the attempts that it makes, and at most one view. -/
theorem record (sound : history.Sound) (call : CacheCall) : (history.record call).Sound := by
  obtain ⟨step, _⟩ := CacheStep.perform history.cache call
  have counts : (history.record call).cache.viewKeys.Finite ∧
      (history.record call).cache.manifestBuilds = (history.record call).cache.viewKeys.ncard := by
    obtain ⟨same, unbuilt⟩ | ⟨key, new, inserted, built⟩ := step.viewKeys
    · exact ⟨same ▸ sound.finite, unbuilt.trans (sound.manifestBuilds.trans (congrArg Set.ncard same.symm))⟩
    · refine ⟨inserted ▸ sound.finite.insert key, ?_⟩
      calc (history.record call).cache.manifestBuilds = history.cache.viewKeys.ncard + 1 := by
            rw [← sound.manifestBuilds]; exact built
        _ = (insert key history.cache.viewKeys).ncard := (Set.ncard_insert_of_notMem new sound.finite).symm
        _ = (history.record call).cache.viewKeys.ncard := congrArg Set.ncard inserted.symm
  refine ⟨sound.attempts.append step.attempts, ?_, counts.1, counts.2, step.ascending sound.ascending,
    step.hasApp sound.hasApp, step.inViews sound.inViews, ?_, ?_⟩
  · rw [CacheHistory.record, List.length_append, ← sound.schemaBuilds]
    exact step.schemaBuilds
  · intro manifest includeSchemas view inside
    rcases List.mem_append.mp inside with old | new
    · exact step.view?_stays (sound.views _ _ _ old)
    · obtain ⟨rfl, answer⟩ := Prod.mk.inj (List.mem_singleton.mp new)
      exact CacheStep.returned_view answer.symm
  · intro manifest kind version synthesized inside
    rcases List.mem_append.mp inside with old | new
    · have kept : history.cache.kept (manifest.appName, ⟨version, kind⟩) = some synthesized :=
        sound.schemas _ _ _ _ old
      exact step.attempts.stays kept
    · obtain ⟨rfl, answer⟩ := Prod.mk.inj (List.mem_singleton.mp new)
      exact CacheStep.returned_schema answer.symm

theorem kept_iff (sound : history.Sound) {key : String × SchemaKey} {synthesized : Synthesized} :
    history.cache.kept key = some synthesized ↔
      ∃ attempt ∈ history.attempts, attempt.key = key ∧ attempt.outcome = .ok synthesized := by
  rw [sound.attempts.final_eq_some]
  simp

theorem kept_of_gives (sound : history.Sound) {call : CacheCall} {answer : CacheAnswer} {key : String × SchemaKey}
    {synthesized : Synthesized} (answered : (call, answer) ∈ history.answers)
    (gives : call.Gives answer key synthesized) : history.cache.kept key = some synthesized := by
  cases gives with
  | schema => exact sound.schemas _ _ _ _ answered
  | view has => exact sound.inViews _ _ _ (sound.views _ _ _ answered) _ _ has

/-- The schemas that are kept are those of the attempts that succeeded, one each. -/
theorem ncard_schemaKeys (sound : history.Sound) :
    history.cache.schemaKeys.ncard = (history.attempts.filter Attempt.succeeds).length := by
  have same : history.cache.schemaKeys =
      (((history.attempts.filter Attempt.succeeds).map Attempt.key).toFinset : Set (String × SchemaKey)) := by
    ext key
    simp only [ManifestCache.schemaKeys, Set.mem_ofPred_eq, Option.isSome_iff_exists, sound.kept_iff,
      List.coe_toFinset, List.mem_map, List.mem_filter, Attempt.succeeds_iff]
    constructor
    · rintro ⟨synthesized, attempt, inside, same, outcome⟩
      exact ⟨attempt, ⟨inside, synthesized, outcome⟩, same⟩
    · rintro ⟨attempt, ⟨inside, synthesized, outcome⟩, same⟩
      exact ⟨synthesized, attempt, inside, same, outcome⟩
  rw [same, Set.ncard_coe_finset, List.toFinset_card_of_nodup sound.attempts.nodup_successes, List.length_map]

theorem schemaBuilds_eq (sound : history.Sound) : history.cache.schemaBuilds =
    history.cache.schemaKeys.ncard + (history.attempts.filter fun attempt => !attempt.succeeds).length := by
  rw [sound.schemaBuilds, sound.ncard_schemaKeys]
  exact List.length_eq_length_filter_add Attempt.succeeds

theorem size_eq (sound : history.Sound) : history.cache.size = {app | history.cache.HasApp app}.ncard := by
  have same : {app | history.cache.HasApp app} = ((Table.keys history.cache.entries).toFinset : Set String) := by
    ext app
    rw [List.coe_toFinset]
    exact ⟨ManifestCache.HasApp.mem_keys, sound.hasApp app⟩
  have distinct : (Table.keys history.cache.entries).Nodup := sound.ascending.imp String.ne_of_lt
  rw [same, Set.ncard_coe_finset, List.toFinset_card_of_nodup distinct, Table.keys, List.length_map]
  rfl

end Sound

theorem sound_of (calls : List CacheCall) : (of calls).Sound := by
  have later (history : CacheHistory) (sound : history.Sound) : (calls.foldl record history).Sound := by
    induction calls generalizing history with
    | nil => exact sound
    | cons call rest ih => exact ih _ (sound.record call)
  exact later empty sound_empty

/-- The calls made one after the other, each on the cache that the one before has left. -/
def runAll (calls : List CacheCall) : CacheM (List (CacheCall × CacheAnswer)) :=
  calls.mapM fun call => do return (call, ← call.perform)

theorem runAll_nil (cache : ManifestCache) : (runAll []).run cache = ⟨([], cache), []⟩ := rfl

theorem runAll_cons (call : CacheCall) (rest : List CacheCall) (cache : ManifestCache) :
    let first := call.perform.run cache
    let later := (runAll rest).run first.value.2
    (runAll (call :: rest)).run cache =
      ⟨((call, first.value.1) :: later.value.1, later.value.2), first.warnings ++ later.warnings⟩ := by
  simp only [runAll, List.mapM_cons, StateT.run_bind, StateT.run_pure]
  simp only [bind, pure, List.append_nil]

theorem foldl_record (calls : List CacheCall) (history : CacheHistory) :
    let run := (runAll calls).run history.cache
    let whole := calls.foldl record history
    whole.cache = run.value.2 ∧ whole.answers = history.answers ++ run.value.1 ∧
      whole.attempts.flatMap Attempt.warnings = history.attempts.flatMap Attempt.warnings ++ run.warnings := by
  induction calls generalizing history with
  | nil => exact ⟨rfl, (List.append_nil _).symm, (List.append_nil _).symm⟩
  | cons call rest ih =>
    obtain ⟨cache, answers, warned⟩ := ih (history.record call)
    rw [runAll_cons, List.foldl_cons]
    refine ⟨cache, answers.trans ?_, warned.trans ?_⟩
    · simp [record]
    · simp [record, (CacheStep.perform history.cache call).2]

/-- A history is what running its calls gives: the answers, the cache that is left, and the warnings, which are
those of the attempts. -/
theorem runAll_eq_of (calls : List CacheCall) : (runAll calls).run .empty =
    ⟨((of calls).answers, (of calls).cache), (of calls).attempts.flatMap Attempt.warnings⟩ := by
  obtain ⟨cache, answers, warned⟩ := foldl_record calls empty
  rw [of, cache, answers, warned]
  rfl

/-- Whatever is returned once is returned from then on, views as views and schemas as schemas, and nothing is
built twice: the counters of the cache tell how many views and schemas it keeps, failures apart. -/
theorem invariants_of_calls (calls : List CacheCall) :
    let history := of calls
    let cache := history.cache
    (runAll calls).run .empty = ⟨(history.answers, cache), history.attempts.flatMap Attempt.warnings⟩ ∧
    (∀ manifest includeSchemas view,
      (CacheCall.view manifest includeSchemas, CacheAnswer.view (.ok view)) ∈ history.answers →
      ∀ other : AppManifest, other.appName = manifest.appName →
        ((CacheCall.view other includeSchemas).perform.run cache).value = (.view (.ok view), cache)) ∧
    (∀ call answer key synthesized, (call, answer) ∈ history.answers → call.Gives answer key synthesized →
      (∀ manifest : AppManifest, manifest.appName = key.1 →
        ((CacheCall.schema manifest key.2.kind key.2.version).perform.run cache).value =
          (.schema (.ok synthesized), cache)) ∧
      ∀ later answer again, (later, answer) ∈ history.answers → later.Gives answer key again → again = synthesized) ∧
    cache.manifestBuilds = cache.viewKeys.ncard ∧
    ((history.attempts.filter Attempt.succeeds).map Attempt.key).Nodup ∧
    (∀ key synthesized, cache.kept key = some synthesized ↔
      ∃ attempt ∈ history.attempts, attempt.key = key ∧ attempt.outcome = .ok synthesized) ∧
    cache.schemaBuilds =
      cache.schemaKeys.ncard + (history.attempts.filter fun attempt => !attempt.succeeds).length ∧
    cache.size = {app | cache.HasApp app}.ncard := by
  have sound := sound_of calls
  refine ⟨runAll_eq_of calls, ?_, ?_, sound.manifestBuilds, sound.attempts.nodup_successes,
    fun key synthesized => sound.kept_iff, sound.schemaBuilds_eq, sound.size_eq⟩
  · intro manifest includeSchemas view answered other named
    have found := sound.views manifest includeSchemas view answered
    rw [← named] at found
    rw [CacheCall.perform_view, ManifestCache.manifest_hit found]
  · intro call answer key synthesized answered gives
    have kept := sound.kept_of_gives answered gives
    refine ⟨fun manifest named => ?_, fun later answer again answeredLater givesLater => ?_⟩
    · have found : (of calls).cache.stored? manifest.appName key.2.kind key.2.version = some synthesized := by
        rw [named]
        exact kept
      rw [CacheCall.perform_schema, ManifestCache.kindVersionSchema_hit found]
    · exact Option.some.inj ((sound.kept_of_gives answeredLater givesLater).symm.trans kept)

end CacheHistory

end ResourceKinds
