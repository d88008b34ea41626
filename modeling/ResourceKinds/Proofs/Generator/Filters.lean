import ResourceKinds.Proofs.Generator.PipelineRuns
import ResourceKinds.Proofs.Generator.SelectedKinds

namespace ResourceKinds

namespace Generator

variable {m : Type → Type} [Monad m] {ι : Type}

theorem filter_filter (generator : Generator m ι) (accepts also : ι → Bool) :
    (generator.filter accepts).filter also = generator.filter fun input => accepts input && also input := by
  obtain ⟨name, generation⟩ := generator
  have tests {α : Type} (input : ι) (work rest : ExceptT Error m α) :
      (if also input then if accepts input then work else rest else rest) =
        if accepts input && also input then work else rest := by
    cases accepts input <;> cases also input <;> rfl
  cases generation with
  | oneToOne generate => simp only [filter, tests]
  | oneToMany generate => simp only [filter, tests]
  | manyToOne generate => simp only [filter, List.filter_filter]

variable [LawfulMonad m]

/-- A filtered generator works on the inputs that pass, and leaves the others alone. -/
theorem run_filter_inputs (generator : Generator m ι) (accepts : ι → Bool) (inputs : List ι) :
    (generator.filter accepts).run inputs = generator.run (inputs.filter accepts) := by
  by_cases all : generator.shape = .manyToOne
  · exact run_filter_manyToOne all accepts inputs
  have single : (generator.filter accepts).shape ≠ .manyToOne := by rwa [shape_filter]
  induction inputs with
  | nil => rw [List.filter_nil, run_nil single, run_nil all]
  | cons input rest ih =>
    rw [run_cons single, run_filter all, ih]
    by_cases accepted : accepts input = true
    · rw [if_pos accepted, List.filter_cons_of_pos accepted]
      exact (run_cons all input _).symm
    · rw [if_neg accepted, List.filter_cons_of_neg accepted, pure_bind]
      simp only [List.nil_append, bind_pure]

/-- A pipeline cannot tell a filtered generator from the generator itself on the inputs that pass. -/
theorem step_filter [MonadLiftT Logged m] (generator : Generator m ι) (accepts : ι → Bool) (inputs : List ι)
    (policy : CollisionPolicy) (set : ArtifactSet) :
    Pipeline.step policy inputs set (generator.filter accepts) =
      Pipeline.step policy (inputs.filter accepts) set generator := by
  unfold Pipeline.step
  rw [run_filter_inputs]
  rfl

/-- To filter a generator is to filter its inputs: under the same name and in the same shape it makes the same files as
its own work, or fails in the same way, with the same effects, alone and in a pipeline. Two filters are one with both
tests. -/
theorem filter_outcome (generator : Generator m ι) (accepts also : ι → Bool) (inputs : List ι) :
    (generator.filter accepts).name = generator.name ∧ (generator.filter accepts).shape = generator.shape ∧
    (generator.filter accepts).run inputs = generator.run (inputs.filter accepts) ∧
    (∀ [MonadLiftT Logged m] policy set, Pipeline.step policy inputs set (generator.filter accepts) =
      Pipeline.step policy (inputs.filter accepts) set generator) ∧
    (generator.filter accepts).filter also = generator.filter fun input => accepts input && also input :=
  ⟨rfl, shape_filter generator accepts, run_filter_inputs generator accepts inputs,
    step_filter generator accepts inputs, filter_filter generator accepts also⟩

end Generator

namespace AppManifest

/-- A manifest that no definitions can be made of. -/
def nameless : AppManifest := ⟨"", "", [deskKind "Desk" none ["v1"]]⟩

def isNamed (manifest : AppManifest) : Bool := manifest.appName ≠ ""

theorem filter_outcome_desks :
    (Generator.definitions .json []).alone nameless = .error (.manifest .emptyAppName) ∧
    ((((Generator.definitions .json []).filter isNamed).run [nameless, splitDesks]).run.run .empty).value.1 =
      .ok [deskFile, lampFile] := by
  have filtered := (Generator.filter_outcome (Generator.definitions .json []) isNamed (fun _ => true)
    [nameless, splitDesks]).2.2.1
  refine ⟨rfl, ?_⟩
  rw [filtered]
  exact definitions_desks

end AppManifest

end ResourceKinds
