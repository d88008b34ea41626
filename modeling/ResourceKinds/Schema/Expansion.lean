import ResourceKinds.Schema.Tree
import ResourceKinds.Warning

namespace ResourceKinds

/-- The components whose re-entry was cut off, in the order met, and the expansions that can be
used again. -/
structure ExpansionState where
  cycles : List String
  done : Fields SchemaNode

namespace SchemaTree

/-- How many components are not under expansion. -/
def unopened (tree : SchemaTree) (stack : List String) : Nat :=
  (tree.names.filter (!stack.contains ·)).length

theorem mem_names_of_get? {tree : SchemaTree} {name : String} {node : SchemaNode}
    (found : tree.get? name = some node) : name ∈ tree.names := by
  obtain ⟨components⟩ := tree
  simp only [get?, names, Table.keys] at found ⊢
  induction components with
  | nil => simp [Table.lookup] at found
  | cons head rest ih =>
    obtain ⟨key, value⟩ := head
    by_cases same : key = name
    · simp [same]
    · simp only [Table.lookup, same, if_false] at found
      exact List.mem_cons_of_mem _ (ih found)

private theorem filter_length_lt {α : Type} {p q : α → Bool} {xs : List α} {x : α}
    (weaker : ∀ y, q y = true → p y = true) (member : x ∈ xs) (kept : p x = true) (dropped : q x = false) :
    (xs.filter q).length < (xs.filter p).length := by
  induction xs with
  | nil => simp at member
  | cons y ys ih =>
    have rest : (ys.filter q).length ≤ (ys.filter p).length := by
      rw [← List.countP_eq_length_filter, ← List.countP_eq_length_filter]
      exact List.countP_mono_left fun z _ holds => weaker z holds
    rcases List.mem_cons.mp member with same | inside
    · subst same
      simp only [List.filter_cons, kept, dropped, if_true, List.length_cons]
      simp only [Bool.false_eq_true, if_false]
      omega
    · have shorter := ih inside
      by_cases hq : q y = true
      · simp only [List.filter_cons, hq, weaker y hq, if_true, List.length_cons]
        omega
      · by_cases hp : p y = true
        · simp only [List.filter_cons, hq, hp, if_true, List.length_cons]
          simp only [Bool.false_eq_true, if_false]
          omega
        · simp only [List.filter_cons, hq, hp]
          exact shorter

/-- Opening a component leaves fewer to open. -/
theorem unopened_cons_lt {tree : SchemaTree} {stack : List String} {name : String} {node : SchemaNode}
    (found : tree.get? name = some node) (closed : ¬ name ∈ stack) :
    tree.unopened (name :: stack) < tree.unopened stack := by
  refine filter_length_lt (x := name) ?_ (mem_names_of_get? found) ?_ ?_
  · intro other outside
    simp only [List.contains_cons, Bool.not_or, Bool.and_eq_true, Bool.not_eq_true'] at outside
    simpa using outside.2
  · simpa using closed
  · simp

mutual

/-- The node without references, given the components under expansion. A reference to one of these closes a cycle and
becomes an open object. A component whose expansion met no cycle is kept and used wherever else it is referred to. -/
def expand (tree : SchemaTree) (stack : List String) (node : SchemaNode) (state : ExpansionState) :
    Except SchemaError (SchemaNode × ExpansionState) :=
  match node with
  | .reference name =>
    match _found : tree.get? name with
    | none => .error (.unresolvedReference name)
    | some target =>
      if _opened : name ∈ stack then
        .ok (.openMap, ⟨state.cycles ++ [name], state.done⟩)
      else match state.done.lookup name with
      | some expanded => .ok (expanded, state)
      | none => do
        let (expanded, after) ← expand tree (name :: stack) target state
        if after.cycles.length = state.cycles.length then
          return (expanded, ⟨after.cycles, after.done.insert name expanded⟩)
        else return (expanded, after)
  | .object properties values facets => do
    let (properties, state) ← expandEach tree stack properties state
    let (values, state) ← expandValues tree stack values state
    return (.object properties values facets, state)
  | .array items annotations => do
    let (items, state) ← expandItems tree stack items state
    return (.array items annotations, state)
  | .scalar kind annotations => .ok (.scalar kind annotations, state)
termination_by (tree.unopened stack, sizeOf node)
decreasing_by
  · exact Prod.Lex.left _ _ (unopened_cons_lt _found _opened)
  all_goals exact Prod.Lex.right _ (by simp_wf; try omega)

def expandEach (tree : SchemaTree) (stack : List String) (nodes : List (String × SchemaNode)) (state : ExpansionState) :
    Except SchemaError (List (String × SchemaNode) × ExpansionState) :=
  match nodes with
  | [] => .ok ([], state)
  | (name, node) :: rest => do
    let (node, state) ← expand tree stack node state
    let (rest, state) ← expandEach tree stack rest state
    return ((name, node) :: rest, state)
termination_by (tree.unopened stack, sizeOf nodes)
decreasing_by all_goals exact Prod.Lex.right _ (by simp_wf; try omega)

def expandValues (tree : SchemaTree) (stack : List String) (values : MapValues SchemaNode) (state : ExpansionState) :
    Except SchemaError (MapValues SchemaNode × ExpansionState) :=
  match values with
  | .none => .ok (.none, state)
  | .unconstrained => .ok (.unconstrained, state)
  | .shaped node => do
    let (node, state) ← expand tree stack node state
    return (.shaped node, state)
termination_by (tree.unopened stack, sizeOf values)
decreasing_by all_goals exact Prod.Lex.right _ (by simp_wf; try omega)

def expandItems (tree : SchemaTree) (stack : List String) (items : Option SchemaNode) (state : ExpansionState) :
    Except SchemaError (Option SchemaNode × ExpansionState) :=
  match items with
  | none => .ok (none, state)
  | some node => do
    let (node, state) ← expand tree stack node state
    return (some node, state)
termination_by (tree.unopened stack, sizeOf items)
decreasing_by all_goals exact Prod.Lex.right _ (by simp_wf; try omega)

end

end SchemaTree

/-- A tree as one node without references. -/
structure Flattened where
  root : String
  node : SchemaNode
  /-- The components whose re-entry was cut off, in the order met. -/
  cycles : List String
deriving DecidableEq

namespace SchemaTree

/-- Expands the only component that no other one refers to. -/
def flatten (tree : SchemaTree) (kind version : String) : Except SchemaError Flattened :=
  match tree.roots with
  | [] => .error (.noRoot kind version)
  | [root] => match tree.get? root with
    | none => .error (.unresolvedReference root)
    | some node => do
      let (node, state) ← tree.expand [root] node ⟨[], []⟩
      return ⟨root, node, state.cycles⟩
  | roots => .error (.ambiguousRoot kind version roots)

/-- The warning that a flattened tree with cut cycles deserves. -/
def flattenWarnings (kind version : String) : Except SchemaError Flattened → List Warning
  | .ok flat => if flat.cycles.isEmpty then [] else [.recursionCut kind version flat.cycles]
  | .error _ => []

end SchemaTree

end ResourceKinds
