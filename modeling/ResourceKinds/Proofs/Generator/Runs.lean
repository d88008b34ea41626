import Mathlib.Data.List.ReduceOption
import ResourceKinds.Generator.Basic
import ResourceKinds.Proofs.BuildRuns

namespace ResourceKinds.Generator

variable {m : Type → Type} [Monad m] {ι : Type}

theorem shape_filter (generator : Generator m ι) (accepts : ι → Bool) :
    (generator.filter accepts).shape = generator.shape := by
  obtain ⟨name, generation⟩ := generator
  cases generation <;> rfl

/-- Of all inputs together, a filter leaves those that it accepts. -/
theorem run_filter_manyToOne {generator : Generator m ι} (all : generator.shape = .manyToOne) (accepts : ι → Bool)
    (inputs : List ι) : (generator.filter accepts).run inputs = generator.run (inputs.filter accepts) := by
  obtain ⟨name, generation⟩ := generator
  cases generation with
  | manyToOne generate => rfl
  | oneToOne => cases all
  | oneToMany => cases all

variable [LawfulMonad m]

theorem run_cons {generator : Generator m ι} (single : generator.shape ≠ .manyToOne) (input : ι) (rest : List ι) :
    generator.run (input :: rest) = do
      let first ← generator.run [input]
      let later ← generator.run rest
      return first ++ later := by
  obtain ⟨name, generation⟩ := generator
  cases generation with
  | manyToOne => exact absurd rfl single
  | oneToOne generate =>
    simp only [run, Generator.generate, List.mapM_cons, List.mapM_nil, bind_assoc, pure_bind]
    refine bind_congr fun first => bind_congr fun later => ?_
    cases first <;> simp [List.reduceOption]
  | oneToMany generate =>
    simp [run, Generator.generate, List.mapM_cons]

theorem run_cons_gives {generator : Generator CacheM ι} (single : generator.shape ≠ .manyToOne) {input : ι}
    {rest : List ι} {cache middle later : ManifestCache} {made files : List Artifact}
    (first : Gives cache (generator.run [input]) made middle)
    (remaining : Gives middle (generator.run rest) files later) :
    Gives cache (generator.run (input :: rest)) (made ++ files) later := by
  rw [run_cons single]
  exact first.bind (remaining.bind Gives.pure)

theorem run_nil {generator : Generator m ι} (single : generator.shape ≠ .manyToOne) :
    generator.run [] = pure [] := by
  obtain ⟨name, generation⟩ := generator
  cases generation with
  | manyToOne => exact absurd rfl single
  | oneToOne generate => simp [run, Generator.generate, List.reduceOption]
  | oneToMany generate => simp [run, Generator.generate]

theorem run_eq_mapM {generator : Generator m ι} (single : generator.shape ≠ .manyToOne) (inputs : List ι) :
    generator.run inputs = do return (← inputs.mapM fun input => generator.run [input]).flatten := by
  induction inputs with
  | nil => simp [run_nil single]
  | cons input rest ih =>
    rw [run_cons single, ih]
    simp [List.mapM_cons]

theorem run_filter {generator : Generator m ι} (single : generator.shape ≠ .manyToOne) (accepts : ι → Bool)
    (input : ι) :
    (generator.filter accepts).run [input] = if accepts input then generator.run [input] else pure [] := by
  obtain ⟨name, generation⟩ := generator
  cases generation with
  | manyToOne => exact absurd rfl single
  | oneToOne generate =>
    by_cases accepted : accepts input <;> simp [run, filter, Generator.generate, accepted, List.reduceOption]
  | oneToMany generate =>
    by_cases accepted : accepts input <;> simp [run, filter, Generator.generate, accepted]

/-- A batch keeps an invariant that speaks about the inputs it is through with. -/
theorem run_leads {generator : Generator CacheM ι} (single : generator.shape ≠ .manyToOne)
    (invariant : List ι → ManifestCache → Prop) {relation : List ι → ι → List Artifact → Prop} (inputs : List ι)
    (step : ∀ done input rest, inputs = done ++ input :: rest → Leads (invariant done) (generator.run [input])
      fun made cache => relation done input made ∧ invariant (done ++ [input]) cache) :
    Leads (invariant []) (generator.run inputs) fun files cache =>
      (∃ made, files = List.flatten made ∧ Aligned relation [] inputs made) ∧ invariant inputs cache := by
  rw [run_eq_mapM single]
  refine (Leads.mapM inputs step).bind fun made => Leads.given fun aligned => ?_
  exact Leads.pure fun cache holds => ⟨⟨made, rfl, aligned⟩, holds⟩

/-- What the generator makes of one input when nothing has been derived from any other. -/
def alone (generator : Generator CacheM ι) (input : ι) : Except Error (List Artifact) :=
  ((generator.run [input]).run.run .empty).value.1

end ResourceKinds.Generator
