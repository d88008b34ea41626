import ResourceKinds.Schema.Synthesis
import ResourceKinds.Proofs.Schema.Rendering

namespace ResourceKinds

namespace StructuralNode

theorem induction {motive : StructuralNode → Prop}
    (object : ∀ properties values facets, (∀ member ∈ properties, motive member.2) →
      (∀ shape, values = some shape → motive shape) → motive (.object properties values facets))
    (array : ∀ items annotations, (∀ item, items = some item → motive item) → motive (.array items annotations))
    (scalar : ∀ kind annotations, motive (.scalar kind annotations)) (node : StructuralNode) :
    motive node := by
  cases node with
  | object properties values facets =>
    exact object properties values facets (fun member _inside => induction object array scalar member.2)
      (fun shape _same => induction object array scalar shape)
  | array items annotations =>
    exact array items annotations fun item _same => induction object array scalar item
  | scalar kind annotations => exact scalar kind annotations
termination_by sizeOf node
decreasing_by
  · have smaller := List.sizeOf_lt_of_mem _inside
    obtain ⟨key, value⟩ := member
    simp only [StructuralNode.object.sizeOf_spec, Prod.mk.sizeOf_spec] at smaller ⊢
    omega
  · subst _same
    simp only [StructuralNode.object.sizeOf_spec, Option.some.sizeOf_spec]
    omega
  · subst _same
    simp only [StructuralNode.array.sizeOf_spec, Option.some.sizeOf_spec]
    omega

mutual

/-- The same shape as a schema node. -/
def toNode : StructuralNode → SchemaNode
  | .object properties none facets => .object (toNodeEach properties) .none facets
  | .object properties (some shape) facets => .object (toNodeEach properties) (.shaped shape.toNode) facets
  | .array none annotations => .array none annotations
  | .array (some item) annotations => .array (some item.toNode) annotations
  | .scalar kind annotations => .scalar kind annotations

def toNodeEach : List (String × StructuralNode) → List (String × SchemaNode)
  | [] => []
  | (name, node) :: rest => (name, node.toNode) :: toNodeEach rest

end

theorem toNodeEach_eq_map (properties : List (String × StructuralNode)) :
    toNodeEach properties = properties.map fun member => (member.1, member.2.toNode) := by
  induction properties with
  | nil => rfl
  | cons head rest ih => exact congrArg ((head.1, head.2.toNode) :: ·) ih

theorem keys_toNodeEach (properties : List (String × StructuralNode)) :
    Table.keys (toNodeEach properties) = Table.keys properties := by
  rw [toNodeEach_eq_map, Table.keys_map]

theorem lookup_toNodeEach (properties : List (String × StructuralNode)) (name : String) :
    Table.lookup (toNodeEach properties) name = (Table.lookup properties name).map toNode := by
  rw [toNodeEach_eq_map, Table.lookup_map]

theorem mem_toNodeEach_iff {properties : List (String × StructuralNode)} {member : String × SchemaNode} :
    member ∈ toNodeEach properties ↔ ∃ form ∈ properties, (form.1, form.2.toNode) = member := by
  rw [toNodeEach_eq_map, List.mem_map]

theorem mem_toNodeEach {properties : List (String × StructuralNode)} {member : String × StructuralNode}
    (inside : member ∈ properties) : (member.1, member.2.toNode) ∈ toNodeEach properties :=
  mem_toNodeEach_iff.mpr ⟨member, inside, rfl⟩

theorem isEmpty_toNodeEach (properties : List (String × StructuralNode)) :
    (toNodeEach properties).isEmpty = properties.isEmpty := by
  rw [toNodeEach_eq_map, List.isEmpty_map]

theorem toJsonEach_eq_map (properties : List (String × StructuralNode)) :
    toJsonEach properties = properties.map fun member => (member.1, member.2.toJson) := by
  induction properties with
  | nil => rfl
  | cons head rest ih => exact congrArg ((head.1, head.2.toJson) :: ·) ih

theorem mem_toJsonEach_iff {properties : List (String × StructuralNode)} {member : String × Json} :
    member ∈ toJsonEach properties ↔ ∃ property ∈ properties, (property.1, property.2.toJson) = member := by
  rw [toJsonEach_eq_map, List.mem_map]

theorem get?_toJsonEach (properties : List (String × StructuralNode)) (name : String) :
    (Json.object (toJsonEach properties)).get? name = (Table.lookup properties name).map toJson := by
  rw [toJsonEach_eq_map]
  exact Table.lookup_map properties toJson name

theorem toJsonEach_toNodeEach {properties : List (String × StructuralNode)}
    (each : ∀ member ∈ properties, member.2.toNode.toJson = member.2.toJson) :
    SchemaNode.toJsonEach (toNodeEach properties) = toJsonEach properties := by
  rw [SchemaNode.toJsonEach_eq_map, toNodeEach_eq_map, toJsonEach_eq_map, List.map_map]
  exact List.map_congr_left fun member inside => congrArg (Prod.mk member.1) (each member inside)

/-- Both are rendered to the same document. -/
theorem toJson_toNode (node : StructuralNode) : node.toNode.toJson = node.toJson := by
  induction node using StructuralNode.induction with
  | object properties values facets inProperties inValues =>
    have each := toJsonEach_toNodeEach inProperties
    cases values with
    | none => simp only [toNode, SchemaNode.toJson, toJson, each, isEmpty_toNodeEach]
    | some shape => simp only [toNode, SchemaNode.toJson, toJson, each, isEmpty_toNodeEach, inValues shape rfl]
  | array items annotations inItems =>
    cases items with
    | none => rfl
    | some item => simp only [toNode, SchemaNode.toJson, toJson, inItems item rfl]
  | scalar kind annotations => rfl

theorem referencesOf_toNodeEach {properties : List (String × StructuralNode)}
    (each : ∀ member ∈ properties, member.2.toNode.references = []) :
    SchemaNode.referencesOf (toNodeEach properties) = [] := by
  induction properties with
  | nil => rfl
  | cons head rest ih =>
    have first := each head (List.mem_cons_self ..)
    have later := ih fun member inside => each member (List.mem_cons_of_mem _ inside)
    simp only [toNodeEach, SchemaNode.referencesOf, first, later, List.append_nil]

theorem references_toNode (node : StructuralNode) : node.toNode.references = [] := by
  induction node using StructuralNode.induction with
  | object properties values facets inProperties inValues =>
    have each := referencesOf_toNodeEach inProperties
    cases values with
    | none => simp only [toNode, SchemaNode.references, each]
    | some shape => simp only [toNode, SchemaNode.references, each, inValues shape rfl, List.append_nil]
  | array items annotations inItems =>
    cases items with
    | none => rfl
    | some item => simp only [toNode, SchemaNode.references, inItems item rfl]
  | scalar kind annotations => rfl

theorem toStructuralEach_toNodeEach {properties : List (String × StructuralNode)}
    (each : ∀ member ∈ properties, member.2.toNode.toStructural = .ok member.2) :
    SchemaNode.toStructuralEach (toNodeEach properties) = .ok properties := by
  induction properties with
  | nil => rfl
  | cons head rest ih =>
    have first := each head (List.mem_cons_self ..)
    have later := ih fun member inside => each member (List.mem_cons_of_mem _ inside)
    simp only [toNodeEach, SchemaNode.toStructuralEach, first, later]
    rfl

section Object

variable {properties : List (String × StructuralNode)} {values : Option StructuralNode} {facets : ObjectFacets}

theorem toNode_object :
    ∃ shape, (object properties values facets).toNode = .object (toNodeEach properties) shape facets := by
  cases values <;> exact ⟨_, rfl⟩

theorem tidy_properties (tidy : (object properties values facets).toNode.Tidy) :
    Table.Ascending properties ∧ ∀ member ∈ properties, member.2.toNode.Tidy := by
  obtain ⟨shape, same⟩ := toNode_object
  rw [same] at tidy
  cases tidy with
  | object ascending each =>
    rw [Table.Ascending, keys_toNodeEach] at ascending
    exact ⟨ascending, fun member inside => each _ (mem_toNodeEach inside)⟩

theorem definite_properties (definite : (object properties values facets).toNode.Definite) :
    ∀ member ∈ properties, member.2.toNode.Definite := by
  obtain ⟨shape, same⟩ := toNode_object
  rw [same] at definite
  cases definite with
  | object each => exact fun member inside => each _ (mem_toNodeEach inside)

end Object

/-- The structural form of a structural schema is the schema itself. -/
theorem toStructural_toNode {node : StructuralNode} (definite : node.toNode.Definite) :
    node.toNode.toStructural = .ok node := by
  induction node using StructuralNode.induction with
  | object properties values facets inProperties inValues =>
    cases values with
    | none =>
      cases definite with
      | object definite =>
        have each := toStructuralEach_toNodeEach fun member inside =>
          inProperties member inside (definite _ (mem_toNodeEach inside))
        simp only [toNode, SchemaNode.toStructural, each]
        rfl
    | some shape =>
      cases definite with
      | object definite shaped typed =>
        have each := toStructuralEach_toNodeEach fun member inside =>
          inProperties member inside (definite _ (mem_toNodeEach inside))
        have inShape := inValues shape rfl (shaped _ rfl)
        simp only [toNode, SchemaNode.toStructural, each, inShape, typed _ rfl]
        rfl
  | array items annotations inItems =>
    cases items with
    | none => rfl
    | some item =>
      cases definite with
      | array definite =>
        simp only [toNode, SchemaNode.toStructural, inItems item rfl (definite _ rfl)]
        rfl
  | scalar kind annotations => rfl

end StructuralNode

namespace SchemaTree

variable (tree : SchemaTree) (stack : List String) (state : ExpansionState)

theorem expandEach_toNodeEach {properties : List (String × StructuralNode)}
    (each : ∀ member ∈ properties, ∀ state, tree.expand stack member.2.toNode state = .ok (member.2.toNode, state)) :
    tree.expandEach stack (StructuralNode.toNodeEach properties) state =
      .ok (StructuralNode.toNodeEach properties, state) := by
  induction properties with
  | nil => simp only [StructuralNode.toNodeEach, expandEach]
  | cons head rest ih =>
    have first := each head (List.mem_cons_self ..)
    have later := ih fun member inside => each member (List.mem_cons_of_mem _ inside)
    simp only [StructuralNode.toNodeEach, expandEach, first, later, bind, Except.bind, pure, Except.pure]

/-- Nothing is left to expand in a structural schema. -/
theorem expand_toNode (node : StructuralNode) :
    tree.expand stack node.toNode state = .ok (node.toNode, state) := by
  induction node using StructuralNode.induction generalizing state with
  | object properties values facets inProperties inValues =>
    have each := expandEach_toNodeEach tree stack state fun member inside state => inProperties member inside state
    cases values with
    | none => simp only [StructuralNode.toNode, expand, each, expandValues, bind, Except.bind, pure, Except.pure]
    | some shape =>
      simp only [StructuralNode.toNode, expand, each, expandValues, inValues shape rfl, bind, Except.bind, pure,
        Except.pure]
  | array items annotations inItems =>
    cases items with
    | none => simp only [StructuralNode.toNode, expand, expandItems, bind, Except.bind, pure, Except.pure]
    | some item =>
      simp only [StructuralNode.toNode, expand, expandItems, inItems item rfl, bind, Except.bind, pure, Except.pure]
  | scalar kind annotations => simp only [StructuralNode.toNode, expand]

end SchemaTree

end ResourceKinds
