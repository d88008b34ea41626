import ResourceKinds.Document.Definition
import ResourceKinds.Proofs.CacheRuns

namespace ResourceKinds

variable {ε ε' α β : Type}

/-- From every cache with the one property, a run that ends well has the other. -/
def Leads (before : ManifestCache → Prop) (computation : ExceptT ε CacheM α) (after : α → ManifestCache → Prop) :
    Prop :=
  Ensures before computation.run fun answer cache => ∀ value, answer = .ok value → after value cache

/-- Each result stands in the relation to its item and to the items before it. -/
inductive Aligned (relation : List α → α → β → Prop) : List α → List α → List β → Prop
  | nil {before} : Aligned relation before [] []
  | cons {before item rest result results} (first : relation before item result)
      (later : Aligned relation (before ++ [item]) rest results) :
      Aligned relation before (item :: rest) (result :: results)

namespace Aligned

variable {relation : List α → α → β → Prop} {before items : List α} {results : List β}

theorem imp {other : List α → α → β → Prop} (aligned : Aligned relation before items results)
    (weakens : ∀ before item result, relation before item result → other before item result) :
    Aligned other before items results := by
  induction aligned with
  | nil => exact .nil
  | cons first later ih => exact .cons (weakens _ _ _ first) ih

theorem zip {γ : Type} {other : List α → α → γ → Prop} {more : List γ} (aligned : Aligned relation before items results)
    (others : Aligned other before items more) : Aligned (fun before item (both : β × γ) =>
      relation before item both.1 ∧ other before item both.2) before items (results.zip more) := by
  induction aligned generalizing more with
  | nil => exact .nil
  | cons first later ih =>
    cases others with
    | cons second rest => exact .cons ⟨first, second⟩ (ih rest)

theorem exists_of_mem (aligned : Aligned relation before items results) :
    ∀ result ∈ results, ∃ earlier, ∃ item ∈ items, relation earlier item result := by
  induction aligned with
  | nil => exact nofun
  | cons first later ih =>
    refine List.forall_mem_cons.mpr ⟨⟨_, _, List.mem_cons_self .., first⟩, fun result inside => ?_⟩
    obtain ⟨earlier, item, among, related⟩ := ih result inside
    exact ⟨earlier, item, List.mem_cons_of_mem _ among, related⟩

theorem forall₂ {related : α → β → Prop}
    (aligned : Aligned (fun _ item result => related item result) before items results) :
    List.Forall₂ related items results := by
  induction aligned with
  | nil => exact .nil
  | cons first _ ih => exact .cons first ih

end Aligned

/-- After a part that ends well the run goes on from the cache that the part leaves. -/
theorem run_bind_of_ok {first : ExceptT ε CacheM α} {next : α → ExceptT ε CacheM β} {cache : ManifestCache} {value : α}
    (answered : (first.run.run cache).value.1 = .ok value) :
    ((first >>= next).run.run cache).value = ((next value).run.run (first.run.run cache).value.2).value := by
  rw [ExceptT.run_bind, StateT.run_bind, Logged.bind_value, answered]

namespace Leads

variable {before : ManifestCache → Prop}

theorem pure {value : α} {after : α → ManifestCache → Prop} (holds : ∀ cache, before cache → after value cache) :
    Leads before (Pure.pure value : ExceptT ε CacheM α) after := by
  rintro cache start _ ⟨⟩
  exact holds cache start

/-- Nothing needs to be known. -/
theorem anything {computation : ExceptT ε CacheM α} : Leads before computation fun _ _ => True :=
  fun _ _ _ _ => trivial

theorem bind {first : ExceptT ε CacheM α} {next : α → ExceptT ε CacheM β} {middle : α → ManifestCache → Prop}
    {after : β → ManifestCache → Prop} (start : Leads before first middle)
    (rest : ∀ value, Leads (middle value) (next value) after) : Leads before (first >>= next) after := by
  unfold Leads
  rw [ExceptT.run_bind]
  refine Ensures.bind start fun answer => ?_
  cases answer with
  | error error => exact Ensures.pure fun cache _ => nofun
  | ok value => exact fun cache holds => rest value cache (holds value rfl)

theorem weaken {computation : ExceptT ε CacheM α} {after weaker : α → ManifestCache → Prop}
    (leads : Leads before computation after) (weakens : ∀ value cache, after value cache → weaker value cache) :
    Leads before computation weaker := fun cache holds value same => weakens value _ (leads cache holds value same)

theorem strengthen {earlier : ManifestCache → Prop} {computation : ExceptT ε CacheM α}
    {after : α → ManifestCache → Prop}
    (leads : Leads before computation after) (strengthens : ∀ cache, earlier cache → before cache) :
    Leads earlier computation after := fun cache holds => leads cache (strengthens cache holds)

theorem given {fact : Prop} {computation : ExceptT ε CacheM α} {after : α → ManifestCache → Prop}
    (leads : fact → Leads before computation after) : Leads (fun cache => fact ∧ before cache) computation after :=
  Ensures.given leads

/-- Another name for the failures changes nothing about what holds when there is none. -/
theorem mapError {computation : ExceptT ε CacheM α} {rename : ε → ε'} {after : α → ManifestCache → Prop}
    (leads : Leads before computation after) :
    Leads before (ExceptT.mk do return (← computation.run).mapError rename) after := by
  refine Ensures.bind leads fun answer => Ensures.pure fun cache holds value same => ?_
  exact holds value (mapError_eq_ok.mp same)

theorem logged {answer : Logged (Except ε α)} :
    Leads before (ExceptT.mk (liftM answer)) fun value cache => answer.value = .ok value ∧ before cache :=
  fun _ holds _ same => ⟨same, holds⟩

theorem ofExcept {answer : Except ε α} :
    Leads before (liftM answer : ExceptT ε CacheM α) fun value cache => answer = .ok value ∧ before cache := by
  cases answer with
  | error error => exact fun cache _ => nofun
  | ok value =>
    rintro cache start _ ⟨⟩
    exact ⟨rfl, start⟩

theorem ofSchema {answer : Except SchemaError α} :
    Leads before (BuildM.ofSchema answer) fun value cache => answer = .ok value ∧ before cache :=
  fun _ holds _ same => ⟨mapError_eq_ok.mp same, holds⟩

theorem ofGraph {answer : Logged (Except VersionGraphError α)} :
    Leads before (BuildM.ofGraph answer) fun value cache => answer.value = .ok value ∧ before cache :=
  Leads.logged.mapError

/-- A loop keeps an invariant that speaks about the items it is through with. -/
theorem mapM {invariant : List α → ManifestCache → Prop} {relation : List α → α → β → Prop}
    {work : α → ExceptT ε CacheM β} (items : List α)
    (step : ∀ done item rest, items = done ++ item :: rest → Leads (invariant done) (work item) fun result cache =>
      relation done item result ∧ invariant (done ++ [item]) cache) :
    Leads (invariant []) (items.mapM work) fun results cache =>
      Aligned relation [] items results ∧ invariant items cache := by
  suffices ∀ done rest, items = done ++ rest → Leads (invariant done) (rest.mapM work) fun results cache =>
      Aligned relation done rest results ∧ invariant items cache from this [] items rfl
  intro done rest whole
  induction rest generalizing done with
  | nil =>
    rw [List.append_nil] at whole
    exact Leads.pure fun cache holds => ⟨.nil, whole ▸ holds⟩
  | cons item rest ih =>
    rw [List.mapM_cons]
    refine (step done item rest whole).bind fun result => Leads.given fun related => ?_
    refine (ih (done ++ [item]) (by simp [whole])).bind fun results => Leads.given fun aligned => ?_
    exact Leads.pure fun cache holds => ⟨.cons related aligned, holds⟩

/-- A loop whose results do not matter. -/
theorem keeps (invariant : List α → ManifestCache → Prop) {work : α → ExceptT ε CacheM β} (items : List α)
    (starts : ∀ cache, before cache → invariant [] cache)
    (step : ∀ done item, Leads (invariant done) (work item) fun _ => invariant (done ++ [item])) :
    Leads before (items.mapM work) fun _ => invariant items := by
  have loop : Leads (invariant []) (items.mapM work) fun results cache =>
      Aligned (fun _ _ _ => True) [] items results ∧ invariant items cache :=
    Leads.mapM items fun done item rest _ => (step done item).weaken fun _ _ holds => ⟨trivial, holds⟩
  exact fun cache holds result same => (loop cache (starts cache holds) result same).2

end Leads

/-- From the one cache the run ends well, with the value and the other cache. -/
def Gives (cache : ManifestCache) (computation : ExceptT ε CacheM α) (value : α) (later : ManifestCache) : Prop :=
  (computation.run.run cache).value = (.ok value, later)

namespace Gives

variable {cache middle later : ManifestCache} {value : α}

theorem pure : Gives cache (Pure.pure value : ExceptT ε CacheM α) value cache := rfl

theorem bind {first : ExceptT ε CacheM α} {next : α → ExceptT ε CacheM β} {result : β}
    (start : Gives cache first value middle) (rest : Gives middle (next value) result later) :
    Gives cache (first >>= next) result later := by
  unfold Gives
  rw [run_bind_of_ok (congrArg Prod.fst start), congrArg Prod.snd start]
  exact rest

theorem mapError {computation : ExceptT ε CacheM α} {rename : ε → ε'} (gives : Gives cache computation value later) :
    Gives cache (ExceptT.mk do return (← computation.run).mapError rename) value later := by
  unfold Gives at gives ⊢
  rw [ExceptT.run_mk, StateT.run_bind, Logged.bind_value, gives]
  rfl

theorem logged {answer : Logged (Except ε α)} (same : answer.value = .ok value) :
    Gives cache (ExceptT.mk (liftM answer)) value cache := by
  unfold Gives
  rw [← same]
  rfl

theorem ofExcept {answer : Except ε α} (same : answer = .ok value) :
    Gives cache (liftM answer : ExceptT ε CacheM α) value cache := by
  rw [same]
  rfl

theorem ofSchema {answer : Except SchemaError α} (same : answer = .ok value) :
    Gives cache (BuildM.ofSchema answer) value cache := by
  rw [same]
  rfl

theorem ofGraph {answer : Logged (Except VersionGraphError α)} (same : answer.value = .ok value) :
    Gives cache (BuildM.ofGraph answer) value cache := (logged same).mapError

theorem mapM_nil {work : α → ExceptT ε CacheM β} : Gives cache ([].mapM work) [] cache := rfl

theorem mapM_cons {work : α → ExceptT ε CacheM β} {item : α} {items : List α} {result : β} {results : List β}
    (first : Gives cache (work item) result middle) (rest : Gives middle (items.mapM work) results later) :
    Gives cache ((item :: items).mapM work) (result :: results) later := by
  rw [List.mapM_cons]
  exact first.bind (rest.bind pure)

end Gives

/-- From every cache with the property the run ends the same, and the property stays. -/
def Settled (holds : ManifestCache → Prop) (computation : ExceptT ε CacheM α) : Prop :=
  ∃ answer, Ensures holds computation.run fun other cache => other = answer ∧ holds cache

namespace Settled

variable {holds : ManifestCache → Prop}

theorem pure {value : α} : Settled holds (Pure.pure value : ExceptT ε CacheM α) :=
  ⟨.ok value, fun _ start => ⟨rfl, start⟩⟩

theorem bind {first : ExceptT ε CacheM α} {next : α → ExceptT ε CacheM β} (start : Settled holds first)
    (rest : ∀ value, Settled holds (next value)) : Settled holds (first >>= next) := by
  obtain ⟨answer, settled⟩ := start
  unfold Settled
  rw [ExceptT.run_bind]
  cases answer with
  | error error =>
    refine ⟨.error error, settled.bind fun other => Ensures.given fun same => ?_⟩
    rw [same]
    exact Ensures.pure fun cache start => ⟨rfl, start⟩
  | ok value =>
    obtain ⟨result, later⟩ := rest value
    refine ⟨result, settled.bind fun other => Ensures.given fun same => ?_⟩
    rw [same]
    exact later

theorem ofExcept {answer : Except ε α} : Settled holds (liftM answer : ExceptT ε CacheM α) := by
  cases answer with
  | error error => exact ⟨.error error, fun _ start => ⟨rfl, start⟩⟩
  | ok value => exact ⟨.ok value, fun _ start => ⟨rfl, start⟩⟩

theorem ofSchema {answer : Except SchemaError α} : Settled holds (BuildM.ofSchema answer) :=
  ⟨answer.mapError .schema, fun _ start => ⟨rfl, start⟩⟩

theorem ofGraph {answer : Logged (Except VersionGraphError α)} : Settled holds (BuildM.ofGraph answer) :=
  ⟨answer.value.mapError .versionGraph, fun _ start => ⟨rfl, start⟩⟩

theorem mapM {work : α → ExceptT ε CacheM β} {items : List α} (step : ∀ item ∈ items, Settled holds (work item)) :
    Settled holds (items.mapM work) := by
  induction items with
  | nil => exact Settled.pure
  | cons item rest ih =>
    rw [List.mapM_cons]
    refine (step item (List.mem_cons_self ..)).bind fun result => ?_
    refine (ih fun other inside => step other (List.mem_cons_of_mem _ inside)).bind fun results => Settled.pure

theorem keeps {computation : ExceptT ε CacheM α} (settled : Settled holds computation) {cache : ManifestCache}
    (start : holds cache) : holds (computation.run.run cache).value.2 := by
  obtain ⟨answer, settled⟩ := settled
  exact (settled cache start).2

/-- Two caches with the property lead to one answer. -/
theorem eq {computation : ExceptT ε CacheM α} (settled : Settled holds computation) {one other : ManifestCache}
    (first : holds one) (second : holds other) :
    (computation.run.run one).value.1 = (computation.run.run other).value.1 := by
  obtain ⟨answer, settled⟩ := settled
  rw [(settled one first).1, (settled other second).1]

end Settled

end ResourceKinds
