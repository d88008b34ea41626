import ResourceKinds.Proofs.Artifact.Agreement
import ResourceKinds.Proofs.Generator.PipelineRuns
import ResourceKinds.Proofs.Result

namespace ResourceKinds

variable {ι : Type} {inputs : List ι} {file : Artifact}

namespace Generator

/-- The generator comes to an end with the inputs, and the file is among those that it makes. -/
def Makes (generator : Generator Logged ι) (inputs : List ι) (file : Artifact) : Prop :=
  ∃ files, (generator.generate inputs).run.value = .ok files ∧ file ∈ files

theorem run_eq_ok {generator : Generator Logged ι} {files : List Artifact} :
    (generator.run inputs).run.value = .ok files ↔
      ∃ made, (generator.generate inputs).run.value = .ok made ∧ made.map (·.stamp [generator.name]) = files := by
  have value : (generator.run inputs).run.value =
      (generator.generate inputs).run.value.map (List.map (·.stamp [generator.name])) := by
    simp only [run, ExceptT.run_bind, Logged.bind_value]
    cases (generator.generate inputs).run.value <;> rfl
  rw [value, map_eq_ok]

/-- The files of several generators, one after the other. -/
def Batches (generators : List (Generator Logged ι)) (inputs : List ι) (batches : List (List Artifact)) : Prop :=
  List.Forall₂ (fun generator files => (generator.run inputs).run.value = .ok files) generators batches

variable {generators : List (Generator Logged ι)} {batches : List (List Artifact)}

/-- Each file bears the name of a generator that makes it. -/
theorem Batches.mem_flatten (made : Batches generators inputs batches) :
    file ∈ batches.flatten ↔ ∃ generator ∈ generators, ∃ plain, generator.Makes inputs plain ∧
      plain.stamp [generator.name] = file := by
  rw [List.mem_flatten]
  constructor
  · rintro ⟨files, among, inside⟩
    obtain ⟨generator, listed, ran⟩ := (exists_of_forall₂ made).1 files among
    obtain ⟨plain, generated, rfl⟩ := run_eq_ok.mp ran
    obtain ⟨own, isOwn, rfl⟩ := List.mem_map.mp inside
    exact ⟨generator, listed, own, ⟨plain, generated, isOwn⟩, rfl⟩
  · rintro ⟨generator, listed, own, ⟨plain, generated, inside⟩, rfl⟩
    obtain ⟨files, among, ran⟩ := (exists_of_forall₂ made).2 generator listed
    obtain ⟨others, generatedToo, rfl⟩ := run_eq_ok.mp ran
    obtain rfl := Except.ok.inj (generated.symm.trans generatedToo)
    exact ⟨_, among, List.mem_map_of_mem inside⟩

end Generator

namespace Pipeline

open Generator (Batches)

variable {generators others : List (Generator Logged ι)} {set result : ArtifactSet}

theorem step_eq_ok {generator : Generator Logged ι} {policy : CollisionPolicy} {next : ArtifactSet} :
    (step policy inputs set generator).run.value = .ok next ↔
      ∃ files, (generator.run inputs).run.value = .ok files ∧ (set.insertAll policy files).value = .ok next := by
  have value : (step policy inputs set generator).run.value = ((generator.run inputs).run.value.mapError
      (GeneratorError.failed generator.name)) >>= fun files => (set.insertAll policy files).value := by
    simp only [step, ExceptT.run_bind, ExceptT.run_mk, Logged.bind_value]
    cases (generator.run inputs).run.value <;> rfl
  rw [value, bind_eq_ok]
  simp only [mapError_eq_ok]

/-- A run is one insertion of the files of all generators. -/
theorem runFrom_eq_ok : (runFrom (pure false) .error inputs generators set).run.value = .ok result ↔
    ∃ batches, Batches generators inputs batches ∧ (set.insertAll .error batches.flatten).value = .ok result := by
  induction generators generalizing set with
  | nil =>
    constructor
    · intro same
      exact ⟨[], .nil, same⟩
    · rintro ⟨_, ⟨⟩, same⟩
      exact same
  | cons generator rest ih =>
    have value : (runFrom (pure false) .error inputs (generator :: rest) set).run.value =
        (step .error inputs set generator).run.value >>= fun next =>
          (runFrom (pure false) .error inputs rest next).run.value := by
      rw [runFrom_cons, ExceptT.run_bind, Logged.bind_value]
      cases (step .error inputs set generator).run.value <;> rfl
    rw [value, bind_eq_ok]
    constructor
    · rintro ⟨next, stepped, later⟩
      obtain ⟨files, ran, inserted⟩ := step_eq_ok.mp stepped
      obtain ⟨batches, made, remaining⟩ := ih.mp later
      exact ⟨files :: batches, .cons ran made, ArtifactSet.insertAll_append_eq_ok.mpr ⟨next, inserted, remaining⟩⟩
    · rintro ⟨_, made, inserted⟩
      obtain ⟨files, batches, ran, madeLater, rfl⟩ := List.forall₂_cons_left_iff.mp made
      obtain ⟨next, first, remaining⟩ := ArtifactSet.insertAll_append_eq_ok.mp inserted
      exact ⟨next, step_eq_ok.mpr ⟨files, ran, first⟩, ih.mpr ⟨batches, madeLater, remaining⟩⟩

/-- Each generator comes to an end, and no two of the files that are made, also by one generator, clash. -/
structure Harmonious (generators : List (Generator Logged ι)) (inputs : List ι) : Prop where
  ends : ∀ generator ∈ generators, ∃ files, (generator.generate inputs).run.value = .ok files
  alike : ∀ one ∈ generators, ∀ other ∈ generators, ∀ first second, one.Makes inputs first →
    other.Makes inputs second → first.path = second.path → first.checksum = second.checksum

/-- Whether a run succeeds can be told from the generators without an order. -/
theorem exists_run_iff :
    (∃ set, ((ofGenerators generators).run inputs).run.value = .ok set) ↔ Harmonious generators inputs := by
  have admitted (files : List Artifact) : ∀ file ∈ files, ArtifactSet.empty.Admits file := fun _ _ => nofun
  constructor
  · rintro ⟨set, ran⟩
    obtain ⟨batches, made, inserted⟩ := runFrom_eq_ok.mp ran
    obtain ⟨_, alike⟩ := ArtifactSet.exists_insertAll_iff.mp ⟨set, inserted⟩
    refine ⟨fun generator listed => ?_, fun one inOne other inOther first second makes makesToo => ?_⟩
    · obtain ⟨files, _, ran⟩ := (exists_of_forall₂ made).2 generator listed
      obtain ⟨plain, generated, _⟩ := Generator.run_eq_ok.mp ran
      exact ⟨plain, generated⟩
    · exact alike (first.stamp [one.name]) (made.mem_flatten.mpr ⟨one, inOne, first, makes, rfl⟩)
        (second.stamp [other.name]) (made.mem_flatten.mpr ⟨other, inOther, second, makesToo, rfl⟩)
  · intro harmonious
    obtain ⟨batches, made⟩ : ∃ batches, Batches generators inputs batches := exists_forall₂_iff.mpr fun generator listed =>
      have ⟨plain, generated⟩ := harmonious.ends generator listed
      ⟨_, Generator.run_eq_ok.mpr ⟨plain, generated, rfl⟩⟩
    have alike : ArtifactSet.Alike batches.flatten := by
      intro file inside other among
      obtain ⟨one, inOne, first, makes, rfl⟩ := made.mem_flatten.mp inside
      obtain ⟨another, inAnother, second, makesToo, rfl⟩ := made.mem_flatten.mp among
      exact harmonious.alike one inOne another inAnother first second makes makesToo
    obtain ⟨set, inserted⟩ := ArtifactSet.exists_insertAll_iff.mpr ⟨admitted _, alike⟩
    exact ⟨set, runFrom_eq_ok.mpr ⟨batches, made, inserted⟩⟩

/-- What a run has to do with the files that are made. -/
structure Collects (generators : List (Generator Logged ι)) (inputs : List ι) (set : ArtifactSet) : Prop where
  keeps : ∀ generator ∈ generators, ∀ file, generator.Makes inputs file → set.Keeps (file.stamp [generator.name])
  origin : ∀ path kept, set.get? path = some kept → ∃ generator ∈ generators, ∃ file, generator.Makes inputs file ∧
    ArtifactSet.ComesOf kept file

theorem collects_of_run (ran : ((ofGenerators generators).run inputs).run.value = .ok set) :
    Collects generators inputs set := by
  obtain ⟨batches, made, inserted⟩ := runFrom_eq_ok.mp ran
  constructor
  · intro generator listed file makes
    exact ArtifactSet.keeps_of_insertAll inserted _ (.inl (made.mem_flatten.mpr ⟨generator, listed, file, makes, rfl⟩))
  · intro path kept found
    obtain ⟨earlier, nothing, _⟩ | ⟨file, inside, comes⟩ := ArtifactSet.origin_of_insertAll inserted found
    · cases nothing
    · obtain ⟨generator, listed, plain, makes, rfl⟩ := made.mem_flatten.mp inside
      exact ⟨generator, listed, plain, makes, comes⟩

/-- Files of the generators that have one checksum have one text. -/
def Faithful (generators : List (Generator Logged ι)) (inputs : List ι) : Prop :=
  ∀ one ∈ generators, ∀ other ∈ generators, ∀ first second, one.Makes inputs first → other.Makes inputs second →
    first.checksum = second.checksum → first.text = second.text

/-- A file that is made is at its path with its own text, since what is there has its checksum and was made as well. -/
theorem Collects.exists_kept (collects : Collects generators inputs set) (faithful : Faithful generators inputs)
    {generator : Generator Logged ι} (listed : generator ∈ generators) (makes : generator.Makes inputs file) :
    ∃ kept, set.get? file.path = some kept ∧ kept.text = file.text ∧ generator.name ∈ kept.generators := by
  obtain ⟨kept, found, content, named⟩ := collects.keeps generator listed file makes
  obtain ⟨source, isListed, own, makesOwn, _, text, checksum⟩ := collects.origin _ kept found
  have same := faithful source isListed generator listed own file makesOwn makes (checksum.trans content)
  exact ⟨kept, found, text.symm.trans same, named _ (List.mem_singleton_self _)⟩

/-- Everything in one set is in the other one with the same text. -/
theorem Collects.text_of_get? {one other : ArtifactSet} (first : Collects generators inputs one)
    (second : Collects others inputs other) (same : ∀ generator, generator ∈ generators → generator ∈ others)
    (faithful : Faithful others inputs) {path : String} {kept : Artifact} (found : one.get? path = some kept) :
    (other.get? path).map Artifact.text = some kept.text := by
  have named : kept.path = path := by simpa using List.find?_some found
  obtain ⟨generator, listed, file, makes, samePath, text, _⟩ := first.origin path kept found
  obtain ⟨there, foundThere, textThere, _⟩ := second.exists_kept faithful (same generator listed) makes
  rw [← named, ← samePath, foundThere, Option.map_some, textThere, text]

/-- Generators without state may run in any order. Both runs succeed or neither does, and it can be told from the files
alone which it is. In the end there is the same text at the same paths, and nothing is lost: each file is at its path
with its own text, and the names there include that of the generator that made it. -/
theorem run_perm {generators others : List (Generator Logged ι)} (same : generators.Perm others) (inputs : List ι)
    (faithful : Faithful generators inputs) :
    ((∃ set, ((ofGenerators generators).run inputs).run.value = .ok set) ↔
      ∃ set, ((ofGenerators others).run inputs).run.value = .ok set) ∧
    ((∃ set, ((ofGenerators generators).run inputs).run.value = .ok set) ↔ Harmonious generators inputs) ∧
    ∀ one other, ((ofGenerators generators).run inputs).run.value = .ok one →
      ((ofGenerators others).run inputs).run.value = .ok other →
      (∀ path, (one.get? path).map Artifact.text = (other.get? path).map Artifact.text) ∧
      ∀ generator ∈ generators, ∀ file, generator.Makes inputs file →
        (∃ kept, one.get? file.path = some kept ∧ kept.text = file.text ∧ generator.name ∈ kept.generators) ∧
        ∃ kept, other.get? file.path = some kept ∧ kept.text = file.text ∧ generator.name ∈ kept.generators := by
  have harmony : Harmonious generators inputs ↔ Harmonious others inputs := by
    constructor <;> rintro ⟨ends, alike⟩
    · simp only [same.mem_iff] at ends alike
      exact ⟨ends, alike⟩
    · simp only [← same.mem_iff] at ends alike
      exact ⟨ends, alike⟩
  have faithfulToo : Faithful others inputs := by
    unfold Faithful at faithful ⊢
    simpa only [same.mem_iff] using faithful
  refine ⟨exists_run_iff.trans (harmony.trans exists_run_iff.symm), exists_run_iff, fun one other ran ranToo => ?_⟩
  have first := collects_of_run ran
  have second := collects_of_run ranToo
  refine ⟨fun path => ?_, fun generator listed file makes =>
    ⟨first.exists_kept faithful listed makes, second.exists_kept faithfulToo (same.mem_iff.mp listed) makes⟩⟩
  cases found : one.get? path with
  | some kept =>
    exact (first.text_of_get? second (fun _ => same.mem_iff.mp) faithfulToo found).symm
  | none =>
    cases foundToo : other.get? path with
    | none => rfl
    | some kept =>
      have there := second.text_of_get? first (fun _ => same.mem_iff.mpr) faithful foundToo
      rw [found] at there
      cases there

/-- A label for each thing. -/
def labels : Generator Logged String :=
  ⟨"labels", .oneToOne fun thing => pure (some ⟨"labels/" ++ thing, "fragile", ⟨"5c"⟩, []⟩)⟩

/-- A copy of one of the labels, and another one at the top, for each thing. -/
def spares : Generator Logged String :=
  ⟨"spares", .oneToMany fun thing =>
    pure [⟨"labels/glass", "fragile", ⟨"5c"⟩, []⟩, ⟨thing ++ ".txt", "fragile", ⟨"5c"⟩, []⟩]⟩

theorem run_perm_labels : [labels, spares].Perm [spares, labels] ∧ Faithful [labels, spares] ["glass"] ∧
    (∃ set, ((ofGenerators [spares, labels]).run ["glass"]).run.value = .ok set) ∧
    ∀ set, ((ofGenerators [spares, labels]).run ["glass"]).run.value = .ok set →
      ∃ kept, set.get? "labels/glass" = some kept ∧ kept.text = "fragile" ∧ "labels" ∈ kept.generators := by
  have faithful : Faithful [labels, spares] ["glass"] := by
    have fragile (generator : Generator Logged String) (listed : generator ∈ [labels, spares]) (file : Artifact)
        (makes : generator.Makes ["glass"] file) : file.text = "fragile" := by
      obtain ⟨files, made, inside⟩ := makes
      rcases List.mem_pair.mp listed with rfl | rfl
      · obtain rfl := Except.ok.inj made
        obtain rfl := List.mem_singleton.mp inside
        rfl
      · obtain rfl := Except.ok.inj made
        rcases List.mem_pair.mp inside with rfl | rfl <;> rfl
    exact fun one inOne other inOther first second makes makesToo _ =>
      (fragile one inOne first makes).trans (fragile other inOther second makesToo).symm
  have same : [labels, spares].Perm [spares, labels] := List.Perm.swap ..
  obtain ⟨both, _, finds⟩ := run_perm same ["glass"] faithful
  have first : ((ofGenerators [labels, spares]).run ["glass"]).run.value =
      .ok ⟨[⟨"labels/glass", "fragile", ⟨"5c"⟩, ["labels", "spares"]⟩,
        ⟨"glass.txt", "fragile", ⟨"5c"⟩, ["spares"]⟩], []⟩ := rfl
  refine ⟨same, faithful, both.mp ⟨_, first⟩, fun set ran => ?_⟩
  obtain ⟨_, finds⟩ := finds _ set first ran
  exact (finds labels (List.mem_cons_self ..) ⟨"labels/glass", "fragile", ⟨"5c"⟩, []⟩
    ⟨_, rfl, List.mem_singleton_self _⟩).2

end Pipeline

end ResourceKinds
