import ResourceKinds.Proofs.Schema.References
import ResourceKinds.Proofs.Result

namespace ResourceKinds.SchemaTree

mutual

/-- The node without references, given the components under expansion, with the components whose
re-entry was cut off, in the order met. -/
def expandAfresh (tree : SchemaTree) (stack : List String) (node : SchemaNode) :
    Except SchemaError (SchemaNode × List String) :=
  match node with
  | .reference name =>
    match _found : tree.get? name with
    | none => .error (.unresolvedReference name)
    | some target =>
      if _opened : name ∈ stack then .ok (.openMap, [name])
      else expandAfresh tree (name :: stack) target
  | .object properties values facets => do
    let (properties, early) ← expandEachAfresh tree stack properties
    let (values, late) ← expandValuesAfresh tree stack values
    return (.object properties values facets, early ++ late)
  | .array items annotations => do
    let (items, cycles) ← expandItemsAfresh tree stack items
    return (.array items annotations, cycles)
  | .scalar kind annotations => .ok (.scalar kind annotations, [])
termination_by (tree.unopened stack, sizeOf node)
decreasing_by
  · exact Prod.Lex.left _ _ (unopened_cons_lt _found _opened)
  all_goals exact Prod.Lex.right _ (by simp_wf; try omega)

def expandEachAfresh (tree : SchemaTree) (stack : List String) (nodes : List (String × SchemaNode)) :
    Except SchemaError (List (String × SchemaNode) × List String) :=
  match nodes with
  | [] => .ok ([], [])
  | (name, node) :: rest => do
    let (node, early) ← expandAfresh tree stack node
    let (rest, late) ← expandEachAfresh tree stack rest
    return ((name, node) :: rest, early ++ late)
termination_by (tree.unopened stack, sizeOf nodes)
decreasing_by all_goals exact Prod.Lex.right _ (by simp_wf; try omega)

def expandValuesAfresh (tree : SchemaTree) (stack : List String) (values : MapValues SchemaNode) :
    Except SchemaError (MapValues SchemaNode × List String) :=
  match values with
  | .none => .ok (.none, [])
  | .unconstrained => .ok (.unconstrained, [])
  | .shaped node => do
    let (node, cycles) ← expandAfresh tree stack node
    return (.shaped node, cycles)
termination_by (tree.unopened stack, sizeOf values)
decreasing_by all_goals exact Prod.Lex.right _ (by simp_wf; try omega)

def expandItemsAfresh (tree : SchemaTree) (stack : List String) (items : Option SchemaNode) :
    Except SchemaError (Option SchemaNode × List String) :=
  match items with
  | none => .ok (none, [])
  | some node => do
    let (node, cycles) ← expandAfresh tree stack node
    return (some node, cycles)
termination_by (tree.unopened stack, sizeOf items)
decreasing_by all_goals exact Prod.Lex.right _ (by simp_wf; try omega)

end

/-- Expands the only component that no other one refers to, following every reference anew. -/
def flattenAfresh (tree : SchemaTree) (kind version : String) : Except SchemaError Flattened :=
  match tree.roots with
  | [] => .error (.noRoot kind version)
  | [root] => match tree.get? root with
    | none => .error (.unresolvedReference root)
    | some node => do
      let (node, cycles) ← tree.expandAfresh [root] node
      return ⟨root, node, cycles⟩
  | roots => .error (.ambiguousRoot kind version roots)

variable {tree : SchemaTree} {stack : List String}

theorem expandAfresh_dangling {name : String} (missing : tree.get? name = none) :
    tree.expandAfresh stack (.reference name) = .error (.unresolvedReference name) := by
  rw [expandAfresh]
  split
  · rfl
  · rename_i found
    simp [missing] at found

theorem expandAfresh_of_get? {name : String} {target : SchemaNode} (found : tree.get? name = some target) :
    tree.expandAfresh stack (.reference name) =
      if name ∈ stack then .ok (.openMap, [name]) else tree.expandAfresh (name :: stack) target := by
  rw [expandAfresh]
  split
  · rename_i missing
    simp [found] at missing
  · rename_i other same
    obtain rfl : target = other := Option.some.inj (found.symm.trans same)
    rw [dite_eq_ite]

theorem expandAfresh_opened {name : String} {target : SchemaNode} (found : tree.get? name = some target)
    (opened : name ∈ stack) : tree.expandAfresh stack (.reference name) = .ok (.openMap, [name]) := by
  rw [expandAfresh_of_get? found, if_pos opened]

theorem expandAfresh_open {name : String} {target : SchemaNode} (found : tree.get? name = some target)
    (closed : name ∉ stack) :
    tree.expandAfresh stack (.reference name) = tree.expandAfresh (name :: stack) target := by
  rw [expandAfresh_of_get? found, if_neg closed]

theorem expandAfresh_scalar {kind : Option ScalarKind} {annotations : Annotations} :
    tree.expandAfresh stack (.scalar kind annotations) = .ok (.scalar kind annotations, []) := by
  simp only [expandAfresh]

/-- A node expands to another one, with nothing cut off but some of the given components. -/
def Expands (tree : SchemaTree) (stack cycles : List String) (node expanded : SchemaNode) : Prop :=
  ∃ cuts, cuts ⊆ cycles ∧ tree.expandAfresh stack node = .ok (expanded, cuts)

theorem Expands.mono {cycles more : List String} {node expanded : SchemaNode}
    (expands : tree.Expands stack cycles node expanded) (subset : cycles ⊆ more) :
    tree.Expands stack more node expanded := by
  obtain ⟨cuts, fewer, done⟩ := expands
  exact ⟨cuts, List.Subset.trans fewer subset, done⟩

theorem Expands.uncut {node expanded : SchemaNode} (expands : tree.Expands stack [] node expanded) :
    tree.expandAfresh stack node = .ok (expanded, []) := by
  obtain ⟨cuts, fewer, done⟩ := expands
  obtain rfl := List.subset_nil.mp fewer
  exact done

section Parts

variable {expanded : SchemaNode} {cycles : List String}

theorem derived_of_expandEachAfresh {nodes results : List (String × SchemaNode)}
    (done : tree.expandEachAfresh stack nodes = .ok (results, cycles)) :
    Table.Derived (fun _ => tree.Expands stack cycles) nodes results := by
  induction nodes generalizing results cycles with
  | nil =>
    simp only [expandEachAfresh, Except.ok.injEq, Prod.mk.injEq] at done
    obtain ⟨rfl, rfl⟩ := done
    exact .nil
  | cons head rest ih =>
    obtain ⟨name, node⟩ := head
    simp only [expandEachAfresh, bind_eq_ok, pure, Except.pure, Except.ok.injEq, Prod.mk.injEq] at done
    obtain ⟨⟨result, early⟩, first, ⟨results, late⟩, second, rfl, rfl⟩ := done
    exact .cons ⟨early, List.subset_append_left .., first⟩
      ((ih second).imp fun _ _ _ expands => expands.mono (List.subset_append_right ..))

theorem expandValuesAfresh_eq_ok {values shapes : MapValues SchemaNode}
    (done : tree.expandValuesAfresh stack values = .ok (shapes, cycles)) :
    shapes.isUnconstrained = values.isUnconstrained ∧
      Option.Rel (tree.Expands stack cycles) values.shape? shapes.shape? := by
  cases values with
  | none | unconstrained =>
    simp only [expandValuesAfresh, Except.ok.injEq, Prod.mk.injEq] at done
    obtain ⟨rfl, _⟩ := done
    exact ⟨rfl, .none⟩
  | shaped node =>
    simp only [expandValuesAfresh, bind_eq_ok, pure, Except.pure, Except.ok.injEq, Prod.mk.injEq] at done
    obtain ⟨⟨shape, cuts⟩, inner, rfl, rfl⟩ := done
    exact ⟨rfl, .some ⟨cuts, List.Subset.refl cuts, inner⟩⟩

/-- The expansion of an object has the expansions of its properties and of its map shape. -/
theorem expandAfresh_object {properties : List (String × SchemaNode)} {values : MapValues SchemaNode}
    {facets : ObjectFacets} (done : tree.expandAfresh stack (.object properties values facets) = .ok (expanded, cycles)) :
    ∃ members shapes, expanded = .object members shapes facets ∧
      Table.Derived (fun _ => tree.Expands stack cycles) properties members ∧
      shapes.isUnconstrained = values.isUnconstrained ∧
      Option.Rel (tree.Expands stack cycles) values.shape? shapes.shape? := by
  simp only [expandAfresh, bind_eq_ok, pure, Except.pure, Except.ok.injEq, Prod.mk.injEq] at done
  obtain ⟨⟨members, early⟩, first, ⟨shapes, late⟩, second, rfl, rfl⟩ := done
  obtain ⟨same, inShape⟩ := expandValuesAfresh_eq_ok second
  refine ⟨members, shapes, rfl, (derived_of_expandEachAfresh first).imp fun _ _ _ expands =>
    expands.mono (List.subset_append_left ..), same, ?_⟩
  generalize values.shape? = shape, shapes.shape? = result at inShape ⊢
  cases inShape with
  | none => exact .none
  | some expands => exact .some (expands.mono (List.subset_append_right ..))

/-- The map shape of an expanded object is the expansion of the map shape of the object. -/
theorem Expands.shape_origin {values : MapValues SchemaNode}
    (inShape : Option.Rel (tree.Expands stack cycles) values.shape? (some expanded)) :
    ∃ shape cuts, values = .shaped shape ∧ tree.expandAfresh stack shape = .ok (expanded, cuts) := by
  generalize shaped : values.shape? = origin at inShape
  cases inShape with
  | some expands =>
    obtain ⟨cuts, _, inner⟩ := expands
    exact ⟨_, cuts, MapValues.eq_shaped_of_shape? shaped, inner⟩

/-- The member of a name in an expanded object is the expansion of the member of that name. -/
theorem expandAfresh_member {properties : List (String × SchemaNode)} {values : MapValues SchemaNode}
    {facets : ObjectFacets} (done : tree.expandAfresh stack (.object properties values facets) = .ok (expanded, cycles)) :
    ∃ members shapes, expanded = .object members shapes facets ∧ shapes.isUnconstrained = values.isUnconstrained ∧
      (∀ name, SchemaNode.memberNode? properties values name = none → SchemaNode.memberNode? members shapes name = none) ∧
      ∀ name node, SchemaNode.memberNode? properties values name = some node →
        ∃ result, SchemaNode.memberNode? members shapes name = some result ∧ tree.Expands stack cycles node result := by
  obtain ⟨members, shapes, rfl, derived, same, inShape⟩ := expandAfresh_object done
  refine ⟨members, shapes, rfl, same, ?_⟩
  simp only [SchemaNode.memberNode?, ← forall_and]
  intro name
  have declared := derived.lookup name
  generalize Table.lookup properties name = node, Table.lookup members name = result at declared ⊢
  generalize values.shape? = shape, shapes.shape? = expandedShape at inShape ⊢
  cases declared with
  | some expands => simpa using expands
  | none =>
    cases inShape with
    | some expands => simpa using expands
    | none => simp

theorem expandAfresh_array {items : Option SchemaNode} {annotations : Annotations}
    (done : tree.expandAfresh stack (.array items annotations) = .ok (expanded, cycles)) :
    ∃ results, expanded = .array results annotations ∧
      Option.Rel (fun node result => tree.expandAfresh stack node = .ok (result, cycles)) items results := by
  simp only [expandAfresh, bind_eq_ok, pure, Except.pure, Except.ok.injEq, Prod.mk.injEq] at done
  obtain ⟨⟨results, cuts⟩, inner, rfl, rfl⟩ := done
  refine ⟨results, rfl, ?_⟩
  cases items with
  | none =>
    simp only [expandItemsAfresh, Except.ok.injEq, Prod.mk.injEq] at inner
    obtain ⟨rfl, _⟩ := inner
    exact .none
  | some item =>
    simp only [expandItemsAfresh, bind_eq_ok, pure, Except.pure, Except.ok.injEq, Prod.mk.injEq] at inner
    obtain ⟨⟨result, cuts⟩, inner, rfl, rfl⟩ := inner
    exact .some inner

/-- A reference to an open component becomes an open object, and any other one the expansion of its target. -/
theorem expandAfresh_reference {name : String}
    (done : tree.expandAfresh stack (.reference name) = .ok (expanded, cycles)) :
    ∃ target, tree.get? name = some target ∧
      (name ∈ stack ∧ expanded = .openMap ∧ cycles = [name] ∨
        name ∉ stack ∧ tree.expandAfresh (name :: stack) target = .ok (expanded, cycles)) := by
  cases found : tree.get? name with
  | none =>
    rw [expandAfresh_dangling found] at done
    cases done
  | some target =>
    refine ⟨target, rfl, ?_⟩
    by_cases opened : name ∈ stack
    · rw [expandAfresh_opened found opened] at done
      obtain ⟨rfl, rfl⟩ := Prod.mk.inj (Except.ok.inj done)
      exact .inl ⟨opened, rfl, rfl⟩
    · rw [expandAfresh_open found opened] at done
      exact .inr ⟨opened, done⟩

end Parts

/-- Two stacks that hold the same of what a node refers to make no difference to its expansion. -/
def Agree (tree : SchemaTree) (node : SchemaNode) (stack others : List String) : Prop :=
  ∀ name, tree.Refers node name → (name ∈ stack ↔ name ∈ others)

theorem expandEachAfresh_congr {others : List String} {nodes : List (String × SchemaNode)}
    (same : ∀ member ∈ nodes, tree.expandAfresh stack member.2 = tree.expandAfresh others member.2) :
    tree.expandEachAfresh stack nodes = tree.expandEachAfresh others nodes := by
  induction nodes with
  | nil => simp only [expandEachAfresh]
  | cons head rest ih =>
    obtain ⟨name, node⟩ := head
    have first := same (name, node) (List.mem_cons_self ..)
    have later := ih fun member inside => same member (List.mem_cons_of_mem _ inside)
    simp only [expandEachAfresh, first, later]

theorem expandAfresh_congr {node : SchemaNode} {others : List String} (agree : tree.Agree node stack others) :
    tree.expandAfresh stack node = tree.expandAfresh others node := by
  induction stack, node using expansion_induction tree generalizing others with
  | object stack properties values facets inProperties inValues =>
    have properties := expandEachAfresh_congr fun member inside =>
      inProperties member inside fun name refers => agree name (refers.of_property inside)
    have values : tree.expandValuesAfresh stack values = tree.expandValuesAfresh others values := by
      cases values with
      | none => simp only [expandValuesAfresh]
      | unconstrained => simp only [expandValuesAfresh]
      | shaped shape =>
        have inShape := inValues shape rfl fun name refers => agree name refers.of_shape
        simp only [expandValuesAfresh, inShape]
    simp only [expandAfresh, properties, values]
  | array stack items annotations inItems =>
    cases items with
    | none => simp only [expandAfresh, expandItemsAfresh]
    | some item =>
      have inItem := inItems item rfl fun name refers => agree name refers.of_item
      simp only [expandAfresh, expandItemsAfresh, inItem]
  | scalar stack kind annotations => simp only [expandAfresh]
  | reference stack name inTarget =>
    cases found : tree.get? name with
    | none => rw [expandAfresh_dangling found, expandAfresh_dangling found]
    | some target =>
      by_cases opened : name ∈ stack
      · rw [expandAfresh_opened found opened, expandAfresh_opened found ((agree name (refers_self name)).mp opened)]
      · have closed : name ∉ others := fun member => opened ((agree name (refers_self name)).mpr member)
        rw [expandAfresh_open found opened, expandAfresh_open found closed]
        apply inTarget target found opened
        intro other refers
        simp only [List.mem_cons, agree other (refers.of_target found)]

/-- What an expansion that cut nothing off shows about its node: nothing that the node refers to is
open, and nothing of it refers to itself. -/
def Settled (tree : SchemaTree) (stack : List String) (node : SchemaNode) : Prop :=
  ∀ name, tree.Refers node name → name ∉ stack ∧ ¬ tree.Recurs name

/-- A component whose own expansion cuts nothing off does not refer to itself: the reference would
have come back while it was open. -/
theorem expandAfresh_settled {node expanded : SchemaNode}
    (done : tree.expandAfresh stack node = .ok (expanded, [])) : tree.Settled stack node := by
  induction stack, node using expansion_induction tree generalizing expanded with
  | object stack properties values facets inProperties inValues =>
    obtain ⟨members, shapes, _, derived, _, inShape⟩ := expandAfresh_object done
    intro name refers
    rcases refers.object_cases with ⟨member, inside, further⟩ | ⟨shape, rfl, further⟩
    · obtain ⟨result, _, expands⟩ := derived.image inside
      exact inProperties member inside expands.uncut name further
    · generalize shapes.shape? = result at inShape
      cases inShape with
      | some expands => exact inValues shape rfl expands.uncut name further
  | array stack items annotations inItems =>
    intro name refers
    obtain ⟨item, rfl, further⟩ := refers.array_cases
    obtain ⟨results, _, inItem⟩ := expandAfresh_array done
    cases inItem with
    | some inner => exact inItems item rfl inner name further
  | scalar stack kind annotations =>
    intro name refers
    exact absurd refers not_refers_scalar
  | reference stack name inTarget =>
    obtain ⟨target, found, ⟨_, _, cut⟩ | ⟨closed, done⟩⟩ := expandAfresh_reference done
    · cases cut
    · have settled := inTarget target found closed done
      have apart : ¬ tree.Refers target name := fun refers =>
        (settled name refers).1 (List.mem_cons_self ..)
      intro other refers
      rcases refers.reference_cases with same | ⟨reached, same, refers⟩
      · subst same
        refine ⟨closed, ?_⟩
        rintro ⟨again, same, refers⟩
        obtain rfl : target = again := Option.some.inj (found.symm.trans same)
        exact apart refers
      · obtain rfl : target = reached := Option.some.inj (found.symm.trans same)
        obtain ⟨closed, once⟩ := settled other refers
        exact ⟨fun member => closed (List.mem_cons_of_mem _ member), once⟩

/-- What cut nothing off in one place cuts nothing off in another one, and gives the same node. -/
theorem expandAfresh_reuse {node expanded : SchemaNode} {others : List String}
    (done : tree.expandAfresh stack node = .ok (expanded, [])) (trail : tree.Trail others node) :
    tree.expandAfresh others node = .ok (expanded, []) := by
  rw [← done]
  apply expandAfresh_congr
  intro name refers
  obtain ⟨closed, once⟩ := expandAfresh_settled done name refers
  exact ⟨fun opened => absurd (trail.recurs opened refers) once, fun opened => absurd opened closed⟩

end ResourceKinds.SchemaTree
