import ResourceKinds.Proofs.Schema.References

namespace ResourceKinds

namespace SchemaTree

/-- The node at the end of a chain of references, given the components met on the way. There is none where the
chain names a component again or one that is missing. -/
def resolveFrom (tree : SchemaTree) (met : List String) (node : SchemaNode) : Option SchemaNode :=
  match node with
  | .reference name =>
    match _found : tree.get? name with
    | none => none
    | some target => if _again : name ∈ met then none else resolveFrom tree (name :: met) target
  | node => some node
termination_by tree.unopened met
decreasing_by exact unopened_cons_lt _found _again

def resolve? (tree : SchemaTree) (node : SchemaNode) : Option SchemaNode := tree.resolveFrom [] node

variable {tree : SchemaTree} {met : List String}

@[simp] theorem resolve?_object {properties : List (String × SchemaNode)} {values : MapValues SchemaNode}
    {facets : ObjectFacets} :
    tree.resolve? (.object properties values facets) = some (.object properties values facets) := by
  simp [resolve?, resolveFrom]

@[simp] theorem resolve?_array {items : Option SchemaNode} {annotations : Annotations} :
    tree.resolve? (.array items annotations) = some (.array items annotations) := by
  simp [resolve?, resolveFrom]

@[simp] theorem resolve?_scalar {kind : Option ScalarKind} {annotations : Annotations} :
    tree.resolve? (.scalar kind annotations) = some (.scalar kind annotations) := by
  simp [resolve?, resolveFrom]

theorem resolveFrom_reference {name : String} {target : SchemaNode} (found : tree.get? name = some target)
    (first : name ∉ met) : tree.resolveFrom met (.reference name) = tree.resolveFrom (name :: met) target := by
  rw [resolveFrom]
  split
  · rename_i missing
    simp [found] at missing
  · rename_i other same
    obtain rfl : target = other := Option.some.inj (found.symm.trans same)
    simp [first]

theorem resolveFrom_reference_eq_some {name : String} {final : SchemaNode}
    (ends : tree.resolveFrom met (.reference name) = some final) :
    name ∉ met ∧ ∃ target, tree.get? name = some target ∧ tree.resolveFrom (name :: met) target = some final := by
  rw [resolveFrom] at ends
  split at ends
  · cases ends
  · rename_i target found
    split at ends
    · cases ends
    · rename_i first
      exact ⟨first, target, found, ends⟩

theorem resolveFrom_mono {node final : SchemaNode} {fewer : List String}
    (ends : tree.resolveFrom met node = some final) (subset : fewer ⊆ met) :
    tree.resolveFrom fewer node = some final := by
  induction met, node using expansion_induction tree generalizing fewer with
  | object | array | scalar =>
    rw [resolveFrom] at ends ⊢
    · exact ends
    all_goals simp
  | reference met name inTarget =>
    obtain ⟨first, target, found, ends⟩ := resolveFrom_reference_eq_some ends
    rw [resolveFrom_reference found fun among => first (subset among)]
    exact inTarget target found first ends (List.cons_subset_cons name subset)

/-- A chain that ends either does without a component or comes by it, and then the component's own chain ends
there. -/
theorem resolveFrom_or {node final : SchemaNode} (ends : tree.resolveFrom met node = some final) (name : String) :
    tree.resolveFrom (name :: met) node = some final ∨ tree.resolve? (.reference name) = some final := by
  induction met, node using expansion_induction tree with
  | object | array | scalar =>
    left
    rw [resolveFrom] at ends ⊢
    · exact ends
    all_goals simp
  | reference met other inTarget =>
    by_cases same : other = name
    · subst same
      exact .inr (resolveFrom_mono ends (List.nil_subset met))
    · obtain ⟨first, target, found, ends⟩ := resolveFrom_reference_eq_some ends
      refine (inTarget target found first ends).imp_left fun without => ?_
      rw [resolveFrom_reference found (by simp [same, first])]
      refine resolveFrom_mono without fun opened among => ?_
      simpa [or_left_comm] using among

/-- A reference stands for what its target stands for. -/
theorem resolve?_reference {name : String} {target : SchemaNode} (found : tree.get? name = some target) :
    tree.resolve? (.reference name) = tree.resolve? target := by
  have step : tree.resolve? (.reference name) = tree.resolveFrom [name] target :=
    resolveFrom_reference found (by simp)
  refine Option.ext fun final => ⟨fun ends => ?_, fun ends => ?_⟩
  · rw [step] at ends
    exact resolveFrom_mono ends (List.nil_subset [name])
  · rcases resolveFrom_or ends name with without | through
    · rw [step]
      exact without
    · exact through

end SchemaTree

end ResourceKinds
