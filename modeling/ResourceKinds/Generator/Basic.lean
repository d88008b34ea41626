import ResourceKinds.Artifact.Set

namespace ResourceKinds

inductive GeneratorShape where
  | oneToOne | oneToMany | manyToOne
deriving DecidableEq

/-- What a generator does. Its effects are those of the monad `m`. -/
inductive Generation (m : Type → Type) (ι : Type) where
  | oneToOne (generate : ι → ExceptT Error m (Option Artifact))
  | oneToMany (generate : ι → ExceptT Error m (List Artifact))
  | manyToOne (generate : List ι → ExceptT Error m (Option Artifact))

structure Generator (m : Type → Type) (ι : Type) where
  name : String
  generation : Generation m ι

namespace Generator

variable {m n : Type → Type} {ι : Type}

def shape (generator : Generator m ι) : GeneratorShape :=
  match generator.generation with
  | .oneToOne _ => .oneToOne
  | .oneToMany _ => .oneToMany
  | .manyToOne _ => .manyToOne

/-- The files of all inputs in order, up to the first failure. -/
def generate [Monad m] (generator : Generator m ι) (inputs : List ι) : ExceptT Error m (List Artifact) :=
  match generator.generation with
  | .oneToOne generate => do return (← inputs.mapM generate).reduceOption
  | .oneToMany generate => do return (← inputs.mapM generate).flatten
  | .manyToOne generate => do return (← generate inputs).toList

/-- The files of all inputs, as the work of this generator. -/
def run [Monad m] (generator : Generator m ι) (inputs : List ι) : ExceptT Error m (List Artifact) := do
  return (← generator.generate inputs).map (·.stamp [generator.name])

/-- The generator that passes over the inputs that a test refuses. -/
def filter [Monad m] (generator : Generator m ι) (accepts : ι → Bool) : Generator m ι where
  name := generator.name
  generation := match generator.generation with
    | .oneToOne generate => .oneToOne fun input => if accepts input then generate input else pure none
    | .oneToMany generate => .oneToMany fun input => if accepts input then generate input else pure []
    | .manyToOne generate => .manyToOne fun inputs => generate (inputs.filter accepts)

/-- The same generator among more effects. -/
def lift [MonadLift m n] (generator : Generator m ι) : Generator n ι :=
  let more {α : Type} (result : ExceptT Error m α) : ExceptT Error n α := ExceptT.mk (MonadLift.monadLift result.run)
  { name := generator.name
    generation := match generator.generation with
      | .oneToOne generate => .oneToOne fun input => more (generate input)
      | .oneToMany generate => .oneToMany fun input => more (generate input)
      | .manyToOne generate => .manyToOne fun inputs => more (generate inputs) }

end Generator

end ResourceKinds
