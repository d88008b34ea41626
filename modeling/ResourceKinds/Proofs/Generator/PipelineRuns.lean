import ResourceKinds.Generator.Documents
import ResourceKinds.Generator.Pipeline
import ResourceKinds.Proofs.Generator.Runs

namespace ResourceKinds

namespace Pipeline

variable {ι : Type} {policy : CollisionPolicy} {inputs : List ι} {set next : ArtifactSet}
  {generator : Generator CacheM ι}

theorem step_leads {before after : ManifestCache → Prop} {made : List Artifact → Prop}
    (leads : Leads before (generator.run inputs) fun files cache => made files ∧ after cache) :
    Leads before (step policy inputs set generator) fun next cache =>
      (∃ files, made files ∧ (set.insertAll policy files).value = .ok next) ∧ after cache := by
  unfold step
  refine leads.mapError.bind fun files => Leads.given fun isMade => ?_
  exact Leads.logged.weaken fun next cache ⟨inserted, holds⟩ => ⟨⟨files, isMade, inserted⟩, holds⟩

theorem step_gives {cache later : ManifestCache} {files : List Artifact}
    (made : Gives cache (generator.run inputs) files later)
    (inserted : (set.insertAll policy files).value = .ok next) :
    Gives cache (step policy inputs set generator) next later :=
  made.mapError.bind (Gives.logged inserted)

theorem runFrom_cons {m : Type → Type} [Monad m] [LawfulMonad m] [MonadLiftT Logged m] (generator : Generator m ι)
    (rest : List (Generator m ι)) : runFrom (pure false) policy inputs (generator :: rest) set =
      step policy inputs set generator >>= runFrom (pure false) policy inputs rest := by
  simp [runFrom]

end Pipeline

namespace Generator

/-- The routes have nothing to do with the cache. -/
theorem routes_settled {holds : ManifestCache → Prop} {encoding : Encoding} {preferred : Fields String}
    {manifests : List AppManifest} : Settled holds ((routes encoding preferred).run manifests) := by
  simp only [run, Generator.generate, routes]
  refine Settled.bind (Settled.bind ?_ fun _ => Settled.pure) fun _ => Settled.pure
  by_cases none : manifests.isEmpty
  · rw [if_pos none]
    exact Settled.pure
  · rw [if_neg none]
    exact Settled.ofGraph.bind fun _ => Settled.pure

theorem routes_leads {before : ManifestCache → Prop} {encoding : Encoding} {preferred : Fields String}
    {manifests : List AppManifest} : Leads before ((routes encoding preferred).run manifests) fun files _ =>
      (((routes encoding preferred).run manifests).run.run .empty).value.1 = .ok files ∧ True := by
  have settled : Settled (fun _ => True) ((routes encoding preferred).run manifests) := routes_settled
  exact fun cache _ files same => ⟨(settled.eq trivial trivial).trans same, trivial⟩

end Generator

end ResourceKinds
