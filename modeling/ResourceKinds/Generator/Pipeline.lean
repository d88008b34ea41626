import ResourceKinds.Generator.Basic
import ResourceKinds.Artifact.Writer

namespace ResourceKinds

structure Pipeline (m : Type → Type) (ι : Type) where
  generators : List (Generator m ι)
  policy : CollisionPolicy
  /-- Asked before each generator. -/
  isCancelled : m Bool

namespace Pipeline

variable {m : Type → Type} {ι : Type} [Monad m]

/-- A pipeline that refuses collisions and cannot be cancelled. -/
def ofGenerators (generators : List (Generator m ι)) : Pipeline m ι := ⟨generators, .error, pure false⟩

def names (pipeline : Pipeline m ι) : List String := pipeline.generators.map Generator.name

variable [MonadLiftT Logged m]

/-- Adds the files of one generator to a set. -/
def step (policy : CollisionPolicy) (inputs : List ι) (set : ArtifactSet) (generator : Generator m ι) :
    ExceptT GeneratorError m ArtifactSet := do
  let artifacts ← ExceptT.mk do
    return (← (generator.run inputs).run).mapError (GeneratorError.failed generator.name)
  ExceptT.mk (liftM (set.insertAll policy artifacts))

/-- Runs the generators one after the other, up to the first failure. -/
def runFrom (isCancelled : m Bool) (policy : CollisionPolicy) (inputs : List ι) :
    List (Generator m ι) → ArtifactSet → ExceptT GeneratorError m ArtifactSet
  | [], set => return set
  | generator :: rest, set => do
    if ← isCancelled then throw (.cancelled generator.name)
    let set ← step policy inputs set generator
    runFrom isCancelled policy inputs rest set

def run (pipeline : Pipeline m ι) (inputs : List ι) : ExceptT GeneratorError m ArtifactSet :=
  runFrom pipeline.isCancelled pipeline.policy inputs pipeline.generators .empty

/-- Runs, and writes the whole set if the run succeeds. -/
def runAndCommit (pipeline : Pipeline m ι) (inputs : List ι) (writer : ArtifactWriter σ) (store : σ) :
    m (σ × Except Error ArtifactSet) := do
  match ← (pipeline.run inputs).run with
  | .error error => return (store, .error (.generator error))
  | .ok set =>
    let (store, result) := writer.write set store
    return (store, result.map fun _ => set)

end Pipeline

/-- A flag that a generator may raise to stop the run before the next one. -/
structure CancelFlag where
  raised : Bool
deriving DecidableEq

abbrev CancellableT (m : Type → Type) := StateT CancelFlag m

namespace CancelFlag

variable {m : Type → Type} [Monad m]

def isRaised : CancellableT m Bool := do return (← get).raised

def raise : CancellableT m Unit := set (⟨true⟩ : CancelFlag)

end CancelFlag

end ResourceKinds
