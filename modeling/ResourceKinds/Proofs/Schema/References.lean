import ResourceKinds.Schema.Expansion
import ResourceKinds.Proofs.Tables

namespace ResourceKinds

namespace MapValues

/-- The node that every value of a map is described by. -/
def shape? {α : Type} : MapValues α → Option α
  | .shaped node => some node
  | .none | .unconstrained => Option.none

/-- Names without a property are admitted with any value. -/
def isUnconstrained {α : Type} : MapValues α → Bool
  | .unconstrained => true
  | _ => false

theorem eq_shaped_of_shape? {α : Type} {values : MapValues α} {node : α} (shaped : values.shape? = some node) :
    values = .shaped node := by
  cases values with
  | none | unconstrained => cases shaped
  | shaped shape => exact congrArg MapValues.shaped (Option.some.inj shaped)

end MapValues

namespace SchemaNode

/-- The node of the member of this name, if the name is declared or given a shape. -/
def memberNode? (properties : List (String × SchemaNode)) (values : MapValues SchemaNode) (name : String) :
    Option SchemaNode :=
  (Table.lookup properties name).or values.shape?

theorem memberNode?_cases {properties : List (String × SchemaNode)} {values : MapValues SchemaNode} {name : String}
    {node : SchemaNode} (chosen : memberNode? properties values name = some node) :
    (name, node) ∈ properties ∨ values = .shaped node := by
  rcases Option.or_eq_some_iff.mp chosen with declared | ⟨_, shaped⟩
  · exact .inl (Table.mem_of_lookup declared)
  · exact .inr (MapValues.eq_shaped_of_shape? shaped)

end SchemaNode

theorem SchemaNode.mem_referencesOf {nodes : List (String × SchemaNode)} {name : String} :
    name ∈ SchemaNode.referencesOf nodes ↔ ∃ member ∈ nodes, name ∈ member.2.references := by
  induction nodes with
  | nil => simp [SchemaNode.referencesOf]
  | cons head rest ih =>
    obtain ⟨key, node⟩ := head
    simp [SchemaNode.referencesOf, ih]

theorem SchemaNode.mem_references_object {properties : List (String × SchemaNode)} {values : MapValues SchemaNode}
    {facets : ObjectFacets} {name : String} :
    name ∈ (SchemaNode.object properties values facets).references ↔
      (∃ member ∈ properties, name ∈ member.2.references) ∨
        ∃ shape, values = .shaped shape ∧ name ∈ shape.references := by
  cases values <;> simp [SchemaNode.references, SchemaNode.mem_referencesOf]

theorem SchemaNode.mem_references_array {items : Option SchemaNode} {annotations : Annotations} {name : String} :
    name ∈ (SchemaNode.array items annotations).references ↔ ∃ item, items = some item ∧ name ∈ item.references := by
  cases items <;> simp [SchemaNode.references]

theorem SchemaNode.references_object_eq_nil {properties : List (String × SchemaNode)} {values : MapValues SchemaNode}
    {facets : ObjectFacets} : (SchemaNode.object properties values facets).references = [] ↔
      (∀ member ∈ properties, member.2.references = []) ∧ ∀ shape, values = .shaped shape → shape.references = [] := by
  simp only [List.eq_nil_iff_forall_not_mem, mem_references_object, not_or, not_exists, not_and, forall_and]
  exact and_congr ⟨fun closed member inside name => closed name member inside,
      fun closed name member inside => closed member inside name⟩
    ⟨fun closed shape same name => closed name shape same, fun closed name shape same => closed shape same name⟩

theorem SchemaNode.references_array_eq_nil {items : Option SchemaNode} {annotations : Annotations} :
    (SchemaNode.array items annotations).references = [] ↔ ∀ item, items = some item → item.references = [] := by
  cases items <;> simp [references]

namespace SchemaTree

/-- A node refers to the components that it names, and to those that the components it names refer
to in turn. -/
inductive Refers (tree : SchemaTree) : SchemaNode → String → Prop
  | names {node name} : name ∈ node.references → Refers tree node name
  | through {node middle target name} : middle ∈ node.references → tree.get? middle = some target →
      Refers tree target name → Refers tree node name

/-- A component recurs when it refers to itself. -/
def Recurs (tree : SchemaTree) (name : String) : Prop :=
  ∃ target, tree.get? name = some target ∧ tree.Refers target name

variable {tree : SchemaTree}

/-- A node refers to everything that a node with fewer references refers to. -/
theorem Refers.of_subset {part whole : SchemaNode} {name : String} (refers : tree.Refers part name)
    (fewer : ∀ other ∈ part.references, other ∈ whole.references) : tree.Refers whole name := by
  cases refers with
  | names member => exact .names (fewer _ member)
  | through member found further => exact .through (fewer _ member) found further

theorem Refers.of_property {properties : List (String × SchemaNode)} {values : MapValues SchemaNode}
    {facets : ObjectFacets} {name : String} {member : String × SchemaNode} (inside : member ∈ properties)
    (refers : tree.Refers member.2 name) : tree.Refers (.object properties values facets) name :=
  refers.of_subset fun _ named => SchemaNode.mem_references_object.mpr (.inl ⟨member, inside, named⟩)

theorem Refers.of_shape {properties : List (String × SchemaNode)} {shape : SchemaNode} {facets : ObjectFacets}
    {name : String} (refers : tree.Refers shape name) : tree.Refers (.object properties (.shaped shape) facets) name :=
  refers.of_subset fun _ named => SchemaNode.mem_references_object.mpr (.inr ⟨shape, rfl, named⟩)

theorem Refers.of_item {item : SchemaNode} {annotations : Annotations} {name : String}
    (refers : tree.Refers item name) : tree.Refers (.array (some item) annotations) name :=
  refers.of_subset fun _ named => SchemaNode.mem_references_array.mpr ⟨item, rfl, named⟩

theorem refers_self (name : String) : tree.Refers (.reference name) name :=
  .names (by simp [SchemaNode.references])

theorem Refers.of_target {name other : String} {target : SchemaNode} (found : tree.get? name = some target)
    (refers : tree.Refers target other) : tree.Refers (.reference name) other :=
  .through (by simp [SchemaNode.references]) found refers

theorem Refers.object_cases {properties : List (String × SchemaNode)} {values : MapValues SchemaNode}
    {facets : ObjectFacets} {name : String} (refers : tree.Refers (.object properties values facets) name) :
    (∃ member ∈ properties, tree.Refers member.2 name) ∨ ∃ shape, values = .shaped shape ∧ tree.Refers shape name := by
  cases refers with
  | names named =>
    rcases SchemaNode.mem_references_object.mp named with ⟨member, inside, named⟩ | ⟨shape, same, named⟩
    · exact .inl ⟨member, inside, .names named⟩
    · exact .inr ⟨shape, same, .names named⟩
  | through named found further =>
    rcases SchemaNode.mem_references_object.mp named with ⟨member, inside, named⟩ | ⟨shape, same, named⟩
    · exact .inl ⟨member, inside, .through named found further⟩
    · exact .inr ⟨shape, same, .through named found further⟩

theorem Refers.array_cases {items : Option SchemaNode} {annotations : Annotations} {name : String}
    (refers : tree.Refers (.array items annotations) name) : ∃ item, items = some item ∧ tree.Refers item name := by
  cases refers with
  | names named =>
    obtain ⟨item, same, named⟩ := SchemaNode.mem_references_array.mp named
    exact ⟨item, same, .names named⟩
  | through named found further =>
    obtain ⟨item, same, named⟩ := SchemaNode.mem_references_array.mp named
    exact ⟨item, same, .through named found further⟩

theorem not_refers_scalar {kind : Option ScalarKind} {annotations : Annotations} {name : String} :
    ¬ tree.Refers (.scalar kind annotations) name := by
  intro refers
  cases refers with
  | names named => simp [SchemaNode.references] at named
  | through named => simp [SchemaNode.references] at named

theorem Refers.reference_cases {name other : String} (refers : tree.Refers (.reference name) other) :
    other = name ∨ ∃ target, tree.get? name = some target ∧ tree.Refers target other := by
  cases refers with
  | names named => exact .inl (by simpa [SchemaNode.references] using named)
  | @through _ middle target _ named found further =>
    obtain rfl : middle = name := by simpa [SchemaNode.references] using named
    exact .inr ⟨target, found, further⟩

/-- The components named on the way of an expansion. Each of them refers to everything that the
node reached by now refers to. -/
def Trail (tree : SchemaTree) (stack : List String) (node : SchemaNode) : Prop :=
  ∀ opened ∈ stack, ∃ target, tree.get? opened = some target ∧
    ∀ name, tree.Refers node name → tree.Refers target name

theorem Trail.mono {stack : List String} {part whole : SchemaNode} (trail : tree.Trail stack whole)
    (fewer : ∀ name, tree.Refers part name → tree.Refers whole name) : tree.Trail stack part := by
  intro opened member
  obtain ⟨target, found, more⟩ := trail opened member
  exact ⟨target, found, fun name refers => more name (fewer name refers)⟩

theorem Trail.root {name : String} {target : SchemaNode} (found : tree.get? name = some target) :
    tree.Trail [name] target := by
  intro opened member
  obtain rfl : opened = name := by simpa using member
  exact ⟨target, found, fun _ refers => refers⟩

theorem Trail.open {stack : List String} {name : String} {target : SchemaNode}
    (trail : tree.Trail stack (.reference name)) (found : tree.get? name = some target) :
    tree.Trail (name :: stack) target := by
  intro opened member
  rcases List.mem_cons.mp member with same | member
  · subst same
    exact ⟨target, found, fun _ refers => refers⟩
  · exact trail.mono (fun _ refers => refers.of_target found) opened member

/-- An open component that the node reached by now refers to refers to itself. -/
theorem Trail.recurs {stack : List String} {node : SchemaNode} {opened : String} (trail : tree.Trail stack node)
    (member : opened ∈ stack) (refers : tree.Refers node opened) : tree.Recurs opened := by
  obtain ⟨target, found, more⟩ := trail opened member
  exact ⟨target, found, more opened refers⟩

/-- A step of an expansion goes into a part of a node, or opens a component that is not open. -/
theorem expansion_induction (tree : SchemaTree) {motive : List String → SchemaNode → Prop}
    (object : ∀ stack properties values facets, (∀ member ∈ properties, motive stack member.2) →
      (∀ shape, values = .shaped shape → motive stack shape) → motive stack (.object properties values facets))
    (array : ∀ stack items annotations, (∀ item, items = some item → motive stack item) →
      motive stack (.array items annotations))
    (scalar : ∀ stack kind annotations, motive stack (.scalar kind annotations))
    (reference : ∀ stack name, (∀ target, tree.get? name = some target → name ∉ stack →
      motive (name :: stack) target) → motive stack (.reference name))
    (stack : List String) (node : SchemaNode) : motive stack node :=
  match node with
  | .object properties values facets =>
    object stack properties values facets
      (fun member _inside => expansion_induction tree object array scalar reference stack member.2)
      (fun shape _same => expansion_induction tree object array scalar reference stack shape)
  | .array items annotations =>
    array stack items annotations fun item _same => expansion_induction tree object array scalar reference stack item
  | .scalar kind annotations => scalar stack kind annotations
  | .reference name =>
    reference stack name fun target _found _closed =>
      expansion_induction tree object array scalar reference (name :: stack) target
termination_by (tree.unopened stack, sizeOf node)
decreasing_by
  · have smaller := List.sizeOf_lt_of_mem _inside
    obtain ⟨key, value⟩ := member
    refine Prod.Lex.right _ ?_
    simp only [SchemaNode.object.sizeOf_spec, Prod.mk.sizeOf_spec] at smaller ⊢
    omega
  · subst _same
    refine Prod.Lex.right _ ?_
    simp only [SchemaNode.object.sizeOf_spec, MapValues.shaped.sizeOf_spec]
    omega
  · subst _same
    refine Prod.Lex.right _ ?_
    simp only [SchemaNode.array.sizeOf_spec, Option.some.sizeOf_spec]
    omega
  · exact Prod.Lex.left _ _ (unopened_cons_lt _found _closed)

/-- Expansion goes into the members of an object by their names. -/
theorem walk_induction (tree : SchemaTree) {motive : List String → SchemaNode → Prop}
    (object : ∀ stack properties values facets,
      (∀ name node, SchemaNode.memberNode? properties values name = some node → motive stack node) →
        motive stack (.object properties values facets))
    (array : ∀ stack items annotations, (∀ item, items = some item → motive stack item) →
      motive stack (.array items annotations))
    (scalar : ∀ stack kind annotations, motive stack (.scalar kind annotations))
    (reference : ∀ stack name, (∀ target, tree.get? name = some target → name ∉ stack →
      motive (name :: stack) target) → motive stack (.reference name))
    (stack : List String) (node : SchemaNode) : motive stack node :=
  expansion_induction tree
    (fun stack properties values facets inProperties inValues =>
      object stack properties values facets fun name node chosen =>
        (SchemaNode.memberNode?_cases chosen).elim (inProperties (name, node)) (inValues node))
    array scalar reference stack node

end SchemaTree

end ResourceKinds
