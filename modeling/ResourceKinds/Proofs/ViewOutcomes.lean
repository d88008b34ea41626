import Mathlib.Data.List.Perm.Basic
import ResourceKinds.Proofs.CacheFailures

namespace ResourceKinds

namespace SchemaKey

variable {first second : SchemaKey}

theorem lt_def : first < second ↔ first.version < second.version ∨
    first.version = second.version ∧ first.kind < second.kind := Iff.rfl

instance : Std.Irrefl fun first second : SchemaKey => first < second where
  irrefl key lower := by
    obtain lower | ⟨-, lower⟩ := lt_def.mp lower
    · exact String.lt_irrefl _ lower
    · exact String.lt_irrefl _ lower

instance : IsTrans SchemaKey (· < ·) where
  trans first second third lower upper := by
    obtain below | ⟨same, below⟩ := lt_def.mp lower
    · obtain above | ⟨sameToo, -⟩ := lt_def.mp upper
      · exact .inl (String.lt_trans below above)
      · exact .inl (sameToo ▸ below)
    · obtain above | ⟨sameToo, above⟩ := lt_def.mp upper
      · exact .inl (same ▸ above)
      · exact .inr ⟨same.trans sameToo, String.lt_trans below above⟩

instance : Std.Trichotomous fun first second : SchemaKey => first < second where
  trichotomous first second notBefore notAfter := by
    rw [lt_def, not_or, not_and] at notBefore notAfter
    have version : first.version = second.version :=
      String.le_antisymm (String.not_lt.mp notAfter.1) (String.not_lt.mp notBefore.1)
    have kind : first.kind = second.kind :=
      String.le_antisymm (String.not_lt.mp (notAfter.2 version.symm)) (String.not_lt.mp (notBefore.2 version))
    obtain ⟨_, _⟩ := first
    obtain ⟨_, _⟩ := second
    obtain rfl : _ = _ := version
    obtain rfl : _ = _ := kind
    rfl

end SchemaKey

namespace AppManifest

/-- What the outcome of a declared version is filed under. -/
def schemaKey (declared : String × KindVersion) : SchemaKey := ⟨declared.2.name, declared.1⟩

/-- What comes of the version's own tree. -/
def ownOutcome (declared : String × KindVersion) : Except SchemaError Synthesized :=
  declared.2.schema.synthesize declared.1 declared.2.name

/-- No version of a kind is declared twice, wherever in the manifest. -/
def DeclaresOnce (manifest : AppManifest) : Prop := (manifest.declared.map schemaKey).Nodup

end AppManifest

open AppManifest (schemaKey ownOutcome)

namespace ViewBuild

/-- The build has come through the declared versions: it has tried each of them, has the outcome that is its own, and
knows no schemas but theirs. -/
structure Through (build : ViewBuild) (done : List (String × KindVersion)) : Prop where
  known : ∀ key, (build.known.lookup key).isSome = true → key ∈ done.map schemaKey
  outcomes : build.outcomes.Perm (done.map fun declared => (schemaKey declared, ownOutcome declared))
  ascending : Table.Ascending build.outcomes
  builds : build.builds = done.length

namespace Through

variable {build : ViewBuild} {done : List (String × KindVersion)}

/-- A version that is new is tried, and files its own outcome among the others. -/
theorem step (through : build.Through done) {declared : String × KindVersion}
    (new : schemaKey declared ∉ done.map schemaKey) : (build.step declared).value.Through (done ++ [declared]) := by
  have missing : build.known.lookup (schemaKey declared) = none :=
    Option.not_isSome_iff_eq_none.mp fun known => new (through.known _ known)
  have stepped : (build.step declared).value =
      ⟨(ownOutcome declared).toOption.elim build.known (build.known.insert (schemaKey declared)),
        build.outcomes.insert (schemaKey declared) (ownOutcome declared), build.builds + 1⟩ := by
    unfold schemaKey at missing
    simp only [ViewBuild.step, missing, ownOutcome, schemaKey]
    cases declared.2.schema.synthesize declared.1 declared.2.name <;> rfl
  have absent : schemaKey declared ∉ Table.keys build.outcomes := by
    intro inside
    obtain ⟨entry, among, same⟩ := List.mem_map.mp inside
    obtain ⟨earlier, inDone, rfl⟩ := List.mem_map.mp (through.outcomes.mem_iff.mp among)
    exact new (List.mem_map.mpr ⟨earlier, inDone, same⟩)
  rw [stepped]
  refine ⟨fun key known => ?_, ?_, Table.ascending_insert through.ascending, ?_⟩
  · rw [List.map_append, List.mem_append]
    cases own : ownOutcome declared with
    | error error =>
      rw [own] at known
      exact .inl (through.known key known)
    | ok schema =>
      rw [own, Except.toOption, Option.elim_some, Table.lookup_insert] at known
      split at known
      · rename_i same
        exact .inr (by simp [same])
      · exact .inl (through.known key known)
  · rw [List.map_append]
    exact (Table.perm_insert absent).trans ((through.outcomes.cons _).trans (List.perm_append_singleton _ _).symm)
  · rw [List.length_append, through.builds]
    rfl

theorem foldlM {rest : List (String × KindVersion)} (through : build.Through done)
    (once : ((done ++ rest).map schemaKey).Nodup) :
    (rest.foldlM ViewBuild.step build).value.Through (done ++ rest) := by
  rw [Logged.foldlM_value]
  induction rest generalizing build done with
  | nil => simpa using through
  | cons declared rest ih =>
    have new : schemaKey declared ∉ done.map schemaKey := by
      rw [List.map_append, List.map_cons] at once
      exact fun inside => (List.nodup_append.mp once).2.2 _ inside _ (List.mem_cons_self ..) rfl
    have moved : done ++ declared :: rest = done ++ [declared] ++ rest := by simp
    rw [moved] at once ⊢
    exact ih (through.step new) once

theorem mem_outcomes (through : build.Through done) {declared : String × KindVersion} (inside : declared ∈ done) :
    (schemaKey declared, ownOutcome declared) ∈ build.outcomes :=
  through.outcomes.mem_iff.mpr (List.mem_map_of_mem inside)

/-- The outcomes are those of the versions, in the order of their keys. -/
theorem exists_ordered (through : build.Through done) : ∃ ordered : List (String × KindVersion), ordered.Perm done ∧
    ordered.Pairwise (fun first second => schemaKey first < schemaKey second) ∧
    build.outcomes = ordered.map fun declared => (schemaKey declared, ownOutcome declared) := by
  have pulled := congrFun (congrFun (List.eq_map_comp_perm fun declared => (schemaKey declared, ownOutcome declared))
    build.outcomes) done
  obtain ⟨ordered, outcomes, perm⟩ := Eq.mpr pulled through.outcomes
  have ascending := through.ascending
  rw [outcomes, Table.Ascending, Table.keys, List.map_map] at ascending
  exact ⟨ordered, perm, List.pairwise_map.mp ascending, outcomes⟩

end Through

end ViewBuild

namespace ManifestCache

variable {cache : ManifestCache} {manifest : AppManifest} {group : String}

theorem view?_of_fresh (fresh : cache.entries.lookup manifest.appName = none) (includeSchemas : Bool) :
    cache.view? manifest.appName includeSchemas = none := by
  simp [view?, fresh]

theorem manifest_full (resolved : manifest.resolveGroup = .ok group)
    (fresh : cache.entries.lookup manifest.appName = none) :
    let result := ((ManifestCache.manifest manifest true).run cache).value
    let build := (manifest.declared.foldlM ViewBuild.step ⟨[], [], 0⟩).value
    result.1 = .ok ⟨manifest.appName, group, manifest.kinds, true, build.outcomes⟩ ∧
      result.2.schemaBuilds = cache.schemaBuilds + build.builds := by
  have unknown : (cache.entry manifest.appName).schemas = [] := by rw [entry, fresh]; rfl
  rw [manifest_built (view?_of_fresh fresh true) resolved, unknown]
  exact ⟨rfl, rfl⟩

theorem manifest_bare (resolved : manifest.resolveGroup = .ok group)
    (missing : cache.view? manifest.appName false = none) :
    let result := ((ManifestCache.manifest manifest false).run cache).value
    result.1 = .ok ⟨manifest.appName, group, manifest.withoutTrees, false, []⟩ ∧
      result.2.schemaBuilds = cache.schemaBuilds := by
  rw [manifest_built missing resolved]
  exact ⟨rfl, rfl⟩

/-- Views of a manifest of which nothing is kept. The one with schemas has for each declared version what comes of its
own tree, whatever comes of the others; that without schemas tries none. -/
theorem manifest_of_fresh (resolved : manifest.resolveGroup = .ok group) (once : manifest.DeclaresOnce)
    (fresh : cache.entries.lookup manifest.appName = none) :
    let full := ((ManifestCache.manifest manifest true).run cache).value
    let bare := ((ManifestCache.manifest manifest false).run cache).value
    (∃ (view : ManifestView) (ordered : List (String × KindVersion)), full.1 = .ok view ∧
      view.kinds = manifest.kinds ∧ ordered.Perm manifest.declared ∧
      ordered.Pairwise (fun first second => schemaKey first < schemaKey second) ∧
      view.schemas = ordered.map (fun declared => (schemaKey declared, ownOutcome declared)) ∧
      (∀ declared ∈ manifest.declared, view.schema? declared.1 declared.2.name = some (ownOutcome declared)) ∧
      view.schemaErrors = ordered.filterMap (fun declared =>
        match ownOutcome declared with
        | .error error => some error
        | .ok _ => none) ∧
      full.2.schemaBuilds = cache.schemaBuilds + manifest.declared.length) ∧
    ∃ view : ManifestView, bare.1 = .ok view ∧
      view.kinds = manifest.kinds.map (fun kind =>
        { kind with versions := kind.versions.map fun version => { version with schema := .empty } }) ∧
      view.schemas = [] ∧ bare.2.schemaBuilds = cache.schemaBuilds := by
  intro full bare
  let build := (manifest.declared.foldlM ViewBuild.step ⟨[], [], 0⟩).value
  have start : ViewBuild.Through ⟨[], [], 0⟩ [] := ⟨nofun, .refl _, .nil, rfl⟩
  have through : build.Through manifest.declared := start.foldlM once
  obtain ⟨ordered, perm, ascending, outcomes⟩ := through.exists_ordered
  obtain ⟨answered, counted⟩ := manifest_full resolved fresh
  have counted : full.2.schemaBuilds = cache.schemaBuilds + manifest.declared.length := through.builds ▸ counted
  obtain ⟨answeredBare, uncounted⟩ := manifest_bare resolved (view?_of_fresh fresh false)
  refine ⟨⟨_, ordered, answered, rfl, perm, ascending, outcomes, fun declared inside => ?_, ?_, counted⟩,
    ⟨_, answeredBare, rfl, rfl, uncounted⟩⟩
  · exact Table.lookup_of_mem through.ascending (through.mem_outcomes inside)
  · have values : Table.values build.outcomes = ordered.map ownOutcome := by
      rw [outcomes, Table.values, List.map_map]
      rfl
    rw [ManifestView.schemaErrors, values, List.filterMap_map]
    rfl

theorem manifest_of_fresh_lamps : ∃ view,
    ((ManifestCache.manifest halfLitLamps true).run .empty).value.1 = .ok view ∧
      view.schema? "Lamp" "v1" = some (.error (.noRoot "Lamp" "v1")) ∧
      view.schema? "Lamp" "v2" = some (.ok CacheHistory.lampSynthesized) ∧
      ((ManifestCache.manifest halfLitLamps true).run .empty).value.2.schemaBuilds = 2 := by
  have resolved : halfLitLamps.resolveGroup = .ok "lamps.dev" := rfl
  have fresh : ManifestCache.empty.entries.lookup halfLitLamps.appName = none := rfl
  have once : halfLitLamps.DeclaresOnce := by unfold AppManifest.DeclaresOnce; decide
  have first : ownOutcome ("Lamp", CacheHistory.lampVersion .empty) = .error (.noRoot "Lamp" "v1") := by rfl
  have built : CacheHistory.lampTree.synthesize "Lamp" "v2" = .ok CacheHistory.lampSynthesized := by cbv
  have second : ownOutcome ("Lamp", { CacheHistory.lampVersion CacheHistory.lampTree with name := "v2" }) =
      .ok CacheHistory.lampSynthesized := built
  obtain ⟨⟨view, ordered, answered, -, -, -, -, own, -, built⟩, -⟩ :=
    manifest_of_fresh resolved once fresh
  refine ⟨view, answered, ?_, ?_, built⟩
  · rw [← first]
    exact own ("Lamp", CacheHistory.lampVersion .empty) (.head _)
  · rw [← second]
    exact own ("Lamp", { CacheHistory.lampVersion CacheHistory.lampTree with name := "v2" }) (.tail _ (.head _))

end ManifestCache

end ResourceKinds
