import ResourceKinds.Proofs.CacheHistories

namespace ResourceKinds

/-- The outcomes of the declarations of one version of one kind, in order. -/
def outcomesOf (declared : List (String × KindVersion)) (key : SchemaKey) : List (Except SchemaError Synthesized) :=
  (declared.filter fun declaration => declaration.1 = key.kind && declaration.2.name = key.version).map
    fun declaration => declaration.2.schema.synthesize declaration.1 declaration.2.name

namespace AppManifest

def outcomes (manifest : AppManifest) (kind version : String) : List (Except SchemaError Synthesized) :=
  outcomesOf manifest.declared ⟨version, kind⟩

/-- What a view has for a version: the first success, or else the last failure. -/
def viewed? (manifest : AppManifest) (kind version : String) : Option (Except SchemaError Synthesized) :=
  ((manifest.outcomes kind version).find? Except.isOk).or (manifest.outcomes kind version).getLast?

/-- What a call for the schema gives before there is a view: the first outcome. -/
def first? (manifest : AppManifest) (kind version : String) : Option (Except SchemaError Synthesized) :=
  (manifest.outcomes kind version).head?

/-- What it gives once there is a view: the first success, or else the first failure. -/
def later? (manifest : AppManifest) (kind version : String) : Option (Except SchemaError Synthesized) :=
  ((manifest.outcomes kind version).find? Except.isOk).or (manifest.outcomes kind version).head?

theorem kindVersion?_first (manifest : AppManifest) (kind version : String) :
    (manifest.kindVersion? kind version).map (fun declared => declared.schema.synthesize kind version) =
      manifest.first? kind version := by
  rw [kindVersion?_eq_find, first?, outcomes, outcomesOf, List.head?_map, List.head?_filter, Option.map_map]
  cases found : manifest.declared.find? fun declared => declared.1 = kind && declared.2.name = version with
  | none => rfl
  | some declared =>
    have named := List.find?_some found
    simp only [Bool.and_eq_true, decide_eq_true_eq] at named
    simp [named.1, named.2]

theorem find?_of_first {manifest : AppManifest} {kind version : String} {synthesized : Synthesized}
    (first : manifest.first? kind version = some (.ok synthesized)) :
    (manifest.outcomes kind version).find? Except.isOk = some (.ok synthesized) := by
  obtain ⟨rest, outcomes⟩ := List.head?_eq_some_iff.mp first
  rw [outcomes]
  rfl

variable {manifest : AppManifest} {kind version : String} {first : Except SchemaError Synthesized}

theorem viewed?_of_first (declared : manifest.first? kind version = some first) :
    ∃ viewed, manifest.viewed? kind version = some viewed := by
  obtain ⟨rest, outcomes⟩ := List.head?_eq_some_iff.mp declared
  rw [viewed?, outcomes, List.getLast?_cons, Option.or_some]
  exact ⟨_, rfl⟩

theorem later?_of_first (declared : manifest.first? kind version = some first) :
    ∃ later, manifest.later? kind version = some later := by
  unfold first? at declared
  rw [later?, declared, Option.or_some]
  exact ⟨_, rfl⟩

/-- If the view has the first outcome, it stays. -/
theorem later?_eq_first (declared : manifest.first? kind version = some first)
    (viewed : manifest.viewed? kind version = some first) : manifest.later? kind version = some first := by
  unfold viewed? at viewed
  unfold later?
  cases found : (manifest.outcomes kind version).find? Except.isOk with
  | none => exact declared
  | some success =>
    rw [found] at viewed
    exact viewed

end AppManifest

namespace ViewBuild

variable {build : ViewBuild} {declared : List (String × KindVersion)} {key : SchemaKey}

theorem step_lookup (build : ViewBuild) (kind : String) (version : KindVersion) (key : SchemaKey) :
    let outcome := version.schema.synthesize kind version.name
    let next := (build.step (kind, version)).value
    next.known.lookup key =
        (if key = ⟨version.name, kind⟩ then (build.known.lookup key).or outcome.toOption
          else build.known.lookup key) ∧
      next.outcomes.lookup key =
        (if key = ⟨version.name, kind⟩ then some ((build.known.lookup key).elim outcome .ok)
          else build.outcomes.lookup key) := by
  simp only [step]
  cases known : build.known.lookup ⟨version.name, kind⟩ with
  | some synthesized =>
    simp only [Table.lookup_insert]
    split
    · rename_i here
      subst here
      simp [known]
    · exact ⟨rfl, rfl⟩
  | none =>
    cases built : version.schema.synthesize kind version.name with
    | error error =>
      simp only [Table.lookup_insert]
      split
      · rename_i here
        subst here
        simp [known, Except.toOption]
      · exact ⟨rfl, rfl⟩
    | ok synthesized =>
      simp only [Table.lookup_insert]
      split
      · rename_i here
        subst here
        simp [known, Except.toOption]
      · exact ⟨rfl, rfl⟩

theorem outcomesOf_cons (kind : String) (version : KindVersion) (rest : List (String × KindVersion)) (key : SchemaKey) :
    outcomesOf ((kind, version) :: rest) key = if key = ⟨version.name, kind⟩ then
      version.schema.synthesize kind version.name :: outcomesOf rest key else outcomesOf rest key := by
  obtain ⟨wanted, ofKind⟩ := key
  by_cases here : (⟨wanted, ofKind⟩ : SchemaKey) = ⟨version.name, kind⟩
  · obtain ⟨rfl, rfl⟩ := SchemaKey.mk.inj here
    simp [outcomesOf]
  · rw [if_neg here, outcomesOf, outcomesOf, List.filter_cons_of_neg]
    simp only [SchemaKey.mk.injEq, not_and] at here
    simp only [Bool.and_eq_true, decide_eq_true_eq, not_and]
    exact fun sameKind sameName => here sameName.symm sameKind.symm

/-- The tables that a build ends with, name by name: a version is known from its first success on, and until
then it has its last failure. -/
theorem foldl_lookup (build : ViewBuild) (declared : List (String × KindVersion)) (key : SchemaKey) :
    let outcomes := outcomesOf declared key
    let last := declared.foldl (fun build declared => (build.step declared).value) build
    last.known.lookup key = (build.known.lookup key).or ((outcomes.find? Except.isOk).bind Except.toOption) ∧
      last.outcomes.lookup key = match build.known.lookup key with
        | some synthesized => if outcomes = [] then build.outcomes.lookup key else some (.ok synthesized)
        | none => ((outcomes.find? Except.isOk).or outcomes.getLast?).or (build.outcomes.lookup key) := by
  induction declared generalizing build with
  | nil =>
    simp only [List.foldl_nil, outcomesOf, List.filter_nil, List.map_nil]
    cases build.known.lookup key <;> simp
  | cons declaration rest ih =>
    obtain ⟨kind, version⟩ := declaration
    obtain ⟨known, outcome⟩ := step_lookup build kind version key
    obtain ⟨lastKnown, lastOutcome⟩ := ih (build.step (kind, version)).value
    simp only [List.foldl_cons, outcomesOf_cons, lastKnown, lastOutcome, known, outcome]
    by_cases here : key = ⟨version.name, kind⟩
    · simp only [if_pos here]
      cases build.known.lookup key with
      | some synthesized => simp
      | none =>
        cases built : version.schema.synthesize kind version.name with
        | ok synthesized =>
          rw [List.find?_cons_of_pos (by rfl)]
          simp [Except.toOption]
        | error error =>
          rw [List.find?_cons_of_neg (by exact Bool.false_ne_true)]
          cases (outcomesOf rest key).find? Except.isOk <;> cases last : (outcomesOf rest key).getLast? <;>
            simp [Except.toOption, List.getLast?_cons, last]
    · simp only [if_neg here, and_self]

end ViewBuild

/-- The manifest that a call is about. -/
def CacheCall.manifest : CacheCall → AppManifest
  | .view manifest _ => manifest
  | .schema manifest _ _ => manifest

namespace ManifestCache

variable {manifest : AppManifest} {cache : ManifestCache}

/-- The cache after calls about the manifest none of which was for its view with schemas. -/
structure BeforeView (manifest : AppManifest) (cache : ManifestCache) : Prop where
  missing : cache.view? manifest.appName true = none
  stored : ∀ kind version synthesized, cache.stored? manifest.appName kind version = some synthesized →
    manifest.first? kind version = some (.ok synthesized)

/-- The cache after calls about the manifest one of which was for its view with schemas. -/
structure AfterView (manifest : AppManifest) (cache : ManifestCache) : Prop where
  view : ∃ view, cache.view? manifest.appName true = some view ∧
    ∀ kind version, view.schema? kind version = manifest.viewed? kind version
  stored : ∀ kind version, cache.stored? manifest.appName kind version =
    ((manifest.outcomes kind version).find? Except.isOk).bind Except.toOption

theorem beforeView_empty (manifest : AppManifest) : BeforeView manifest empty :=
  ⟨rfl, nofun⟩

/-- What the manifest alone gives to a declared version is the outcome of its first declaration. -/
theorem schemaOf_first {group : String} (resolved : manifest.resolveGroup = .ok group) {kind version : String}
    {first : Except SchemaError Synthesized} (declared : manifest.first? kind version = some first) :
    manifest.schemaOf kind version = first.mapError .schema := by
  rw [← manifest.kindVersion?_first] at declared
  obtain ⟨declaration, found, rfl⟩ := Option.map_eq_some_iff.mp declared
  simp only [AppManifest.schemaOf, resolved, found]

/-- What a call for a schema returns in a cache, whatever is kept in it. -/
theorem kindVersionSchema_answer (cache : ManifestCache) (manifest : AppManifest) (kind version : String) :
    ((kindVersionSchema manifest kind version).run cache).value.1 = cache.answer manifest kind version :=
  (kindVersionSchema_answers kind version cache fun _ _ => rfl).1

/-- A view without schemas leaves the schemas and the view with schemas as they are. -/
theorem plainView_keeps {group : String} (resolved : manifest.resolveGroup = .ok group) (cache : ManifestCache) :
    let next := ((ManifestCache.manifest manifest false).run cache).value.2
    (∀ kind version, next.stored? manifest.appName kind version = cache.stored? manifest.appName kind version) ∧
      next.view? manifest.appName true = cache.view? manifest.appName true := by
  cases found : cache.view? manifest.appName false with
  | some view =>
    rw [manifest_hit found]
    exact ⟨fun _ _ => rfl, rfl⟩
  | none =>
    rw [manifest_built found resolved]
    refine ⟨fun kind version => ?_, ?_⟩
    · rw [stored?_eq, entry_of_insert rfl, if_pos rfl, CacheEntry.schemas_setView, stored?_eq]
      rfl
    · rw [view?_of_insert rfl, if_pos rfl, CacheEntry.view?_setView, view?_eq]
      rfl

theorem view_succeeds {group : String} (resolved : manifest.resolveGroup = .ok group) (includeSchemas : Bool)
    (cache : ManifestCache) :
    ∃ view, ((ManifestCache.manifest manifest includeSchemas).run cache).value.1 = .ok view := by
  cases found : cache.view? manifest.appName includeSchemas with
  | some view => exact ⟨view, by rw [manifest_hit found]⟩
  | none => exact ⟨_, by rw [manifest_built found resolved]⟩

namespace BeforeView

theorem schema (before : BeforeView manifest cache) (kind version : String) :
    BeforeView manifest ((kindVersionSchema manifest kind version).run cache).value.2 := by
  cases found : cache.stored? manifest.appName kind version with
  | some synthesized => rwa [kindVersionSchema_hit found]
  | none =>
    obtain ⟨-, stored, views⟩ := kindVersionSchema_miss found
    refine ⟨(views _ _).trans before.missing, fun name other synthesized kept => ?_⟩
    rw [stored] at kept
    split at kept
    · rename_i here
      obtain ⟨-, rfl, rfl⟩ := here
      cases own : manifest.schemaOf name other with
      | error error => rw [own] at kept; cases kept
      | ok schema =>
        rw [own] at kept
        obtain rfl := Option.some.inj kept
        obtain ⟨-, declared, known, built⟩ := AppManifest.schemaOf_eq_ok.mp own
        rw [← manifest.kindVersion?_first, known, ← built]
        rfl
    · exact before.stored name other synthesized kept

theorem plainView {group : String} (resolved : manifest.resolveGroup = .ok group) (before : BeforeView manifest cache) :
    BeforeView manifest ((ManifestCache.manifest manifest false).run cache).value.2 := by
  obtain ⟨stored, views⟩ := plainView_keeps resolved cache
  exact ⟨views.trans before.missing, fun kind version synthesized kept =>
    before.stored kind version synthesized ((stored kind version).symm.trans kept)⟩

/-- The view takes what is kept for the first success, which it is. -/
theorem view {group : String} (resolved : manifest.resolveGroup = .ok group) (before : BeforeView manifest cache) :
    AfterView manifest ((ManifestCache.manifest manifest true).run cache).value.2 := by
  have tables (kind version : String) := ViewBuild.foldl_lookup ⟨(cache.entry manifest.appName).schemas, [], 0⟩
    manifest.declared ⟨version, kind⟩
  simp only [← stored?_eq] at tables
  rw [manifest_built before.missing resolved]
  refine ⟨⟨(manifest.buildView group true (cache.entry manifest.appName).schemas).value.1, ?_, ?_⟩, ?_⟩
  · rw [view?_of_insert rfl, if_pos rfl, CacheEntry.view?_setView, if_pos rfl]
  · intro kind version
    simp only [AppManifest.buildView, if_true, Logged.bind_value, Logged.foldlM_value]
    refine (tables kind version).2.trans ?_
    cases kept : cache.stored? manifest.appName kind version with
    | none => exact Option.or_none
    | some synthesized =>
      have first := before.stored kind version synthesized kept
      have some : outcomesOf manifest.declared ⟨version, kind⟩ ≠ [] := by
        intro nothing
        rw [AppManifest.first?, AppManifest.outcomes, nothing] at first
        cases first
      rw [AppManifest.viewed?, AppManifest.find?_of_first first]
      exact if_neg some
  · intro kind version
    rw [stored?_eq, entry_of_insert rfl, if_pos rfl, CacheEntry.schemas_setView]
    simp only [AppManifest.buildView, if_true, Logged.bind_value, Logged.foldlM_value]
    refine (tables kind version).1.trans ?_
    cases kept : cache.stored? manifest.appName kind version with
    | none => rfl
    | some synthesized =>
      rw [AppManifest.find?_of_first (before.stored kind version synthesized kept)]
      rfl

/-- A call for the schema returns the first outcome. -/
theorem answer {group : String} (resolved : manifest.resolveGroup = .ok group) (before : BeforeView manifest cache)
    {kind version : String} {first : Except SchemaError Synthesized}
    (declared : manifest.first? kind version = some first) :
    cache.answer manifest kind version = first.mapError .schema := by
  unfold ManifestCache.answer
  cases kept : cache.stored? manifest.appName kind version with
  | none => exact schemaOf_first resolved declared
  | some synthesized =>
    obtain rfl := Option.some.inj (declared.symm.trans (before.stored kind version synthesized kept))
    rfl

end BeforeView

namespace AfterView

/-- What has no success among its outcomes is tried again, in vain. -/
theorem schema (later : AfterView manifest cache) (kind version : String) :
    AfterView manifest ((kindVersionSchema manifest kind version).run cache).value.2 := by
  cases found : cache.stored? manifest.appName kind version with
  | some synthesized => rwa [kindVersionSchema_hit found]
  | none =>
    obtain ⟨-, stored, views⟩ := kindVersionSchema_miss found
    obtain ⟨view, kept, schemas⟩ := later.view
    refine ⟨⟨view, (views _ _).trans kept, schemas⟩, fun name other => ?_⟩
    rw [stored]
    split
    · rename_i here
      obtain ⟨-, rfl, rfl⟩ := here
      have vain := (later.stored name other).symm.trans found
      cases own : manifest.schemaOf name other with
      | error error => exact vain.symm
      | ok synthesized =>
        obtain ⟨-, declared, known, built⟩ := AppManifest.schemaOf_eq_ok.mp own
        have first := manifest.kindVersion?_first name other
        rw [known, Option.map_some, built] at first
        rw [AppManifest.find?_of_first first.symm] at vain
        cases vain
    · exact later.stored name other

theorem plainView {group : String} (resolved : manifest.resolveGroup = .ok group) (later : AfterView manifest cache) :
    AfterView manifest ((ManifestCache.manifest manifest false).run cache).value.2 := by
  obtain ⟨stored, views⟩ := plainView_keeps resolved cache
  obtain ⟨view, kept, schemas⟩ := later.view
  exact ⟨⟨view, views.trans kept, schemas⟩, fun kind version =>
    (stored kind version).trans (later.stored kind version)⟩

theorem again (later : AfterView manifest cache) :
    AfterView manifest ((ManifestCache.manifest manifest true).run cache).value.2 := by
  obtain ⟨view, kept, -⟩ := later.view
  rwa [manifest_hit kept]

/-- A call for the schema returns the first success, or else the first failure. -/
theorem answer {group : String} (resolved : manifest.resolveGroup = .ok group) (after : AfterView manifest cache)
    {kind version : String} {outcome : Except SchemaError Synthesized}
    (declared : manifest.later? kind version = some outcome) :
    cache.answer manifest kind version = outcome.mapError .schema := by
  unfold ManifestCache.answer
  rw [after.stored]
  unfold AppManifest.later? at declared
  cases found : (manifest.outcomes kind version).find? Except.isOk with
  | none =>
    rw [found] at declared
    exact schemaOf_first resolved declared
  | some success =>
    rw [found] at declared
    obtain rfl := Option.some.inj declared
    have isOk := List.find?_some found
    cases success with
    | error error => cases isOk
    | ok synthesized => rfl

end AfterView

end ManifestCache

namespace CacheHistory

open ManifestCache

variable {manifest : AppManifest} {group : String} {cache : ManifestCache} {viewed : Prop}

/-- The cache after calls about the manifest, with its view among them or not. -/
def Stage (manifest : AppManifest) (viewed : Prop) (cache : ManifestCache) : Prop :=
  (viewed → AfterView manifest cache) ∧ (¬ viewed → BeforeView manifest cache)

theorem Stage.perform (resolved : manifest.resolveGroup = .ok group) (stage : Stage manifest viewed cache)
    {call : CacheCall} (about : call.manifest = manifest) :
    Stage manifest (viewed ∨ call = .view manifest true) (call.perform.run cache).value.2 := by
  cases call with
  | schema other kind version =>
    obtain rfl : other = manifest := about
    rw [CacheCall.perform_schema]
    refine ⟨?_, fun unviewed => (stage.2 fun before => unviewed (.inl before)).schema kind version⟩
    rintro (before | ⟨⟨⟩⟩)
    exact (stage.1 before).schema kind version
  | view other includeSchemas =>
    obtain rfl : other = manifest := about
    rw [CacheCall.perform_view]
    cases includeSchemas with
    | false =>
      refine ⟨?_, fun unviewed => (stage.2 fun before => unviewed (.inl before)).plainView resolved⟩
      rintro (before | ⟨⟨⟩⟩)
      exact (stage.1 before).plainView resolved
    | true =>
      refine ⟨fun _ => ?_, fun unviewed => absurd (.inr rfl) unviewed⟩
      by_cases before : viewed
      · exact (stage.1 before).again
      · exact (stage.2 before).view resolved

theorem Stage.runAll (resolved : manifest.resolveGroup = .ok group) {calls : List CacheCall}
    (about : ∀ call ∈ calls, call.manifest = manifest) (stage : Stage manifest viewed cache) :
    Stage manifest (viewed ∨ .view manifest true ∈ calls) ((runAll calls).run cache).value.2 := by
  induction calls generalizing cache viewed with
  | nil =>
    simp only [List.not_mem_nil, or_false]
    exact stage
  | cons call rest ih =>
    rw [runAll_cons]
    have later := ih (fun call inside => about call (List.mem_cons_of_mem _ inside))
      (stage.perform resolved (about call (List.mem_cons_self ..)))
    simpa only [List.mem_cons, or_assoc, eq_comm] using later

/-- The answers of a run are what its calls get from the caches that the calls before them have left. -/
theorem mem_runAll {calls : List CacheCall} {call : CacheCall} {answer : CacheAnswer} :
    (call, answer) ∈ ((runAll calls).run cache).value.1 ↔ ∃ before after, calls = before ++ call :: after ∧
      answer = (call.perform.run ((runAll before).run cache).value.2).value.1 := by
  induction calls generalizing cache with
  | nil =>
    constructor
    · exact fun answered => nomatch answered
    · rintro ⟨before, after, nothing, -⟩
      exact absurd nothing.symm (List.append_ne_nil_of_right_ne_nil _ (List.cons_ne_nil _ _))
  | cons first rest ih =>
    rw [runAll_cons, List.mem_cons]
    constructor
    · rintro (here | later)
      · obtain ⟨rfl, rfl⟩ := Prod.mk.inj here
        exact ⟨[], rest, rfl, rfl⟩
      · obtain ⟨before, after, rfl, answer⟩ := ih.mp later
        refine ⟨first :: before, after, rfl, ?_⟩
        rw [runAll_cons]
        exact answer
    · rintro ⟨_ | ⟨earlier, before⟩, after, whole, rfl⟩
      · obtain ⟨rfl, rfl⟩ := List.cons.inj whole
        exact .inl rfl
      · obtain ⟨rfl, rfl⟩ := List.cons.inj whole
        refine .inr (ih.mpr ⟨before, after, rfl, ?_⟩)
        rw [runAll_cons]

/-- Where a run about the manifest leaves a cache that is empty at first. -/
theorem stage_of_runAll (resolved : manifest.resolveGroup = .ok group) {calls : List CacheCall}
    (about : ∀ call ∈ calls, call.manifest = manifest) :
    Stage manifest (.view manifest true ∈ calls) ((runAll calls).run .empty).value.2 := by
  have start : Stage manifest False .empty := ⟨False.elim, fun _ => beforeView_empty manifest⟩
  simpa only [false_or] using start.runAll resolved about

/-- All views with schemas are of the same outcomes. -/
theorem view_of_runAll (resolved : manifest.resolveGroup = .ok group) {before : List CacheCall}
    (about : ∀ call ∈ before, call.manifest = manifest) :
    ∃ view, ((ManifestCache.manifest manifest true).run ((runAll before).run .empty).value.2).value.1 = .ok view ∧
      ∀ kind version, view.schema? kind version = manifest.viewed? kind version := by
  obtain ⟨returned, succeeded⟩ := view_succeeds resolved true ((runAll before).run .empty).value.2
  have answered : ((CacheCall.perform (.view manifest true)).run ((runAll before).run .empty).value.2).value.1 =
      .view (.ok returned) := by rw [CacheCall.perform_view, succeeded]
  have stage := (stage_of_runAll resolved about).perform resolved
    (rfl : (CacheCall.view manifest true).manifest = manifest)
  obtain ⟨view, kept, schemas⟩ := (stage.1 (.inr rfl)).view
  obtain rfl := Option.some.inj ((CacheStep.returned_view answered).symm.trans kept)
  exact ⟨returned, succeeded, schemas⟩

/-- The answer of a call for a schema goes by whether a view with schemas came before it. -/
theorem schema_of_runAll (resolved : manifest.resolveGroup = .ok group) {before : List CacheCall}
    (about : ∀ call ∈ before, call.manifest = manifest) {kind version : String}
    {first later : Except SchemaError Synthesized} (hasFirst : manifest.first? kind version = some first)
    (hasLater : manifest.later? kind version = some later) :
    let answer := ((kindVersionSchema manifest kind version).run ((runAll before).run .empty).value.2).value.1
    (.view manifest true ∉ before → answer = first.mapError .schema) ∧
      (.view manifest true ∈ before → answer = later.mapError .schema) := by
  have stage := stage_of_runAll resolved about
  simp only [kindVersionSchema_answer]
  exact ⟨fun unseen => (stage.2 unseen).answer resolved hasFirst, fun seen => (stage.1 seen).answer resolved hasLater⟩

theorem mapError_schema_injective :
    Function.Injective (Except.mapError .schema : Except SchemaError Synthesized → Except Error Synthesized) := by
  rintro (first | first) (other | other) same <;> cases same <;> rfl

/-- For a version whose first outcome is the one in the view, calls may come in any order, and for no other one. -/
theorem schema_answers_iff (resolved : manifest.resolveGroup = .ok group) {kind version : String}
    (declared : (manifest.kindVersion? kind version).isSome = true) :
    ∃ first later viewed, manifest.first? kind version = some first ∧ manifest.later? kind version = some later ∧
      manifest.viewed? kind version = some viewed ∧
      (∀ before : List CacheCall, (∀ call ∈ before, call.manifest = manifest) →
        let cache := ((runAll before).run .empty).value.2
        (∃ view, ((ManifestCache.manifest manifest true).run cache).value.1 = .ok view ∧
          view.schema? kind version = some viewed) ∧
        (.view manifest true ∉ before →
          ((kindVersionSchema manifest kind version).run cache).value.1 = first.mapError .schema) ∧
        (.view manifest true ∈ before →
          ((kindVersionSchema manifest kind version).run cache).value.1 = later.mapError .schema)) ∧
      ((∀ calls : List CacheCall, (∀ call ∈ calls, call.manifest = manifest) →
        let answers := ((runAll calls).run .empty).value.1
        ∀ answer view outcome, (.schema manifest kind version, .schema answer) ∈ answers →
          (.view manifest true, .view (.ok view)) ∈ answers → view.schema? kind version = some outcome →
          answer = outcome.mapError .schema) ↔ first = viewed) := by
  rw [← Option.isSome_map, AppManifest.kindVersion?_first] at declared
  obtain ⟨first, hasFirst⟩ := Option.isSome_iff_exists.mp declared
  obtain ⟨later, hasLater⟩ := AppManifest.later?_of_first hasFirst
  obtain ⟨viewed, hasViewed⟩ := AppManifest.viewed?_of_first hasFirst
  refine ⟨first, later, viewed, hasFirst, hasLater, hasViewed, fun before about => ?_, ?_⟩
  · obtain ⟨view, answered, schemas⟩ := view_of_runAll resolved about
    exact ⟨⟨view, answered, (schemas kind version).trans hasViewed⟩,
      schema_of_runAll resolved about hasFirst hasLater⟩
  · constructor
    · intro agree
      have about : ∀ call ∈ [CacheCall.schema manifest kind version], call.manifest = manifest := by
        intro call inside
        rw [List.mem_singleton.mp inside]
        rfl
      obtain ⟨view, answered, schemas⟩ := view_of_runAll resolved about
      have direct := (schema_of_runAll resolved (List.forall_mem_nil _) hasFirst hasLater).1 List.not_mem_nil
      have same := agree [.schema manifest kind version, .view manifest true] (by simp [CacheCall.manifest])
        (first.mapError .schema) view viewed (mem_runAll.mpr ⟨[], _, rfl, ?_⟩)
        (mem_runAll.mpr ⟨[.schema manifest kind version], [], rfl, ?_⟩) ((schemas kind version).trans hasViewed)
      · exact mapError_schema_injective same
      · rw [CacheCall.perform_schema]
        exact congrArg CacheAnswer.schema direct.symm
      · rw [CacheCall.perform_view, answered]
    · rintro rfl calls about answers answer view outcome answered returned has
      have outcomeFirst : outcome = first := by
        obtain ⟨before, after, rfl, built⟩ := mem_runAll.mp returned
        obtain ⟨again, succeeded, schemas⟩ :=
          view_of_runAll resolved fun call inside => about call (List.mem_append_left _ inside)
        rw [CacheCall.perform_view, succeeded] at built
        obtain rfl := Except.ok.inj (CacheAnswer.view.inj built)
        exact Option.some.inj (has.symm.trans ((schemas kind version).trans hasViewed))
      subst outcomeFirst
      obtain ⟨before, after, rfl, built⟩ := mem_runAll.mp answered
      rw [CacheCall.perform_schema] at built
      obtain rfl := CacheAnswer.schema.inj built
      have answers := schema_of_runAll resolved (fun call inside => about call (List.mem_append_left _ inside))
        hasFirst (AppManifest.later?_eq_first hasFirst hasViewed)
      by_cases seen : .view manifest true ∈ before
      · exact answers.2 seen
      · exact answers.1 seen

def lampTree : SchemaTree := ⟨[("Lamp", .object [] .none ⟨[], false, .empty⟩)]⟩

def lampVersion (schema : SchemaTree) : KindVersion := ⟨"v1", schema, [], [], ⟨true, true⟩, .none, false, true⟩

def lamps (versions : List KindVersion) : AppManifest where
  appName := "lamps"
  group := "lamps.dev"
  kinds := [⟨"lamps.dev", "Lamp", .namespaced, "", "", versions, none⟩]

def lampSynthesized : Synthesized := ⟨"Lamp", ⟨[], none, ⟨[], false, .empty⟩⟩, [], []⟩

theorem synthesize_lampTree : lampTree.synthesize "Lamp" "v1" = .ok lampSynthesized := by cbv

theorem outcomes_lamps : (lamps [lampVersion lampTree]).outcomes "Lamp" "v1" = [.ok lampSynthesized] := by
  rw [← synthesize_lampTree]
  rfl

theorem schema_answers_iff_lamps :
    (lamps [lampVersion lampTree]).resolveGroup = .ok "lamps.dev" ∧
    ((lamps [lampVersion lampTree]).kindVersion? "Lamp" "v1").isSome = true ∧
    (lamps [lampVersion lampTree]).viewed? "Lamp" "v1" = some (.ok lampSynthesized) ∧
    ∀ calls : List CacheCall, (∀ call ∈ calls, call.manifest = lamps [lampVersion lampTree]) →
      ∀ answer view outcome, (.schema (lamps [lampVersion lampTree]) "Lamp" "v1", .schema answer) ∈
          ((runAll calls).run .empty).value.1 →
        (.view (lamps [lampVersion lampTree]) true, .view (.ok view)) ∈ ((runAll calls).run .empty).value.1 →
        view.schema? "Lamp" "v1" = some outcome → answer = outcome.mapError .schema := by
  have resolved : (lamps [lampVersion lampTree]).resolveGroup = .ok "lamps.dev" := by rfl
  have declared : ((lamps [lampVersion lampTree]).kindVersion? "Lamp" "v1").isSome = true := by rfl
  have viewed : (lamps [lampVersion lampTree]).viewed? "Lamp" "v1" = some (.ok lampSynthesized) := by
    rw [AppManifest.viewed?, outcomes_lamps]
    rfl
  have first : (lamps [lampVersion lampTree]).first? "Lamp" "v1" = some (.ok lampSynthesized) := by
    rw [AppManifest.first?, outcomes_lamps]
    rfl
  obtain ⟨one, later, other, isFirst, -, isViewed, -, ordered⟩ := schema_answers_iff resolved declared
  refine ⟨resolved, declared, viewed, ordered.mpr ?_⟩
  exact Option.some.inj (isFirst.symm.trans (first.trans (viewed.symm.trans isViewed)))

/-- A version that is declared without a schema and then with one has none until there is a view. -/
theorem lamp_lit_by_view :
    let manifest := lamps [lampVersion .empty, lampVersion lampTree]
    let direct := CacheCall.schema manifest "Lamp" "v1"
    manifest.resolveGroup = .ok "lamps.dev" ∧ (manifest.kindVersion? "Lamp" "v1").isSome = true ∧
    ∃ synthesized view, view.schema? "Lamp" "v1" = some (.ok synthesized) ∧
      ((runAll [direct, .view manifest true, direct]).run .empty).value.1 =
        [(direct, .schema (.error (.schema (.noRoot "Lamp" "v1")))), (.view manifest true, .view (.ok view)),
          (direct, .schema (.ok synthesized))] := by
  intro manifest direct
  have resolved : manifest.resolveGroup = .ok "lamps.dev" := by rfl
  have outcomes : manifest.outcomes "Lamp" "v1" = [.error (.noRoot "Lamp" "v1"), .ok lampSynthesized] := by
    rw [← synthesize_lampTree]
    rfl
  have first : manifest.first? "Lamp" "v1" = some (.error (.noRoot "Lamp" "v1")) := by
    rw [AppManifest.first?, outcomes]
    rfl
  have later : manifest.later? "Lamp" "v1" = some (.ok lampSynthesized) := by
    rw [AppManifest.later?, outcomes]
    rfl
  have viewed : manifest.viewed? "Lamp" "v1" = some (.ok lampSynthesized) := by
    rw [AppManifest.viewed?, outcomes]
    rfl
  have aboutDirect : ∀ call ∈ [direct], call.manifest = manifest := List.forall_mem_singleton.mpr rfl
  have aboutBoth : ∀ call ∈ [direct, .view manifest true], call.manifest = manifest :=
    List.forall_mem_cons.mpr ⟨rfl, List.forall_mem_singleton.mpr rfl⟩
  obtain ⟨view, succeeded, schemas⟩ := view_of_runAll resolved aboutDirect
  have before := (schema_of_runAll resolved (List.forall_mem_nil _) first later).1 List.not_mem_nil
  have after := (schema_of_runAll resolved aboutBoth first later).2 (List.mem_cons_of_mem _ (List.mem_singleton_self _))
  refine ⟨resolved, rfl, lampSynthesized, view, (schemas "Lamp" "v1").trans viewed, ?_⟩
  simp only [runAll_nil, runAll_cons, CacheCall.perform_schema, CacheCall.perform_view, direct] at before succeeded after ⊢
  rw [before, succeeded, after]
  rfl

end CacheHistory

end ResourceKinds
