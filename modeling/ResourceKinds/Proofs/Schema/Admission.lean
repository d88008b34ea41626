import ResourceKinds.Conformance.Validator
import ResourceKinds.Proofs.Schema.Resolution
import ResourceKinds.Proofs.Schema.Resynthesis

namespace ResourceKinds

namespace SchemaNode

/-- The type that a node names. -/
def typeName? : SchemaNode → Option String
  | .object _ _ _ => some "object"
  | .array _ _ => some "array"
  | .scalar kind _ => kind.map ScalarKind.name
  | .reference _ => none

end SchemaNode

namespace SchemaTree

/-- The value has the type that the node names; no type is named by a chain of references without an end. -/
def admitsType (tree : SchemaTree) (node : SchemaNode) (value : Json) : Bool :=
  ((tree.resolve? node).bind SchemaNode.typeName?).all (Conformance.hasType value)

mutual

/-- The value has the types, the required members, the members and the items that the node declares. -/
def admits (tree : SchemaTree) (node : SchemaNode) : Json → Bool
  | .object members => tree.admitsType node (.object members) && match tree.resolve? node with
    | some (.object properties values facets) =>
      facets.required.all (Table.contains members) && admitsMembers tree properties values members
    | _ => true
  | .array elements => tree.admitsType node (.array elements) && match tree.resolve? node with
    | some (.array (some item) _) => admitsItems tree item elements
    | _ => true
  | value => tree.admitsType node value

def admitsItems (tree : SchemaTree) (item : SchemaNode) : List Json → Bool
  | [] => true
  | element :: rest => tree.admits item element && admitsItems tree item rest

/-- Members that are neither declared nor given a shape may be anything. -/
def admitsMembers (tree : SchemaTree) (properties : List (String × SchemaNode)) (values : MapValues SchemaNode) :
    List (String × Json) → Bool
  | [] => true
  | (name, value) :: rest =>
    (match SchemaNode.memberNode? properties values name with
      | some node => tree.admits node value
      | none => true) && admitsMembers tree properties values rest

end

variable {tree : SchemaTree}

theorem admits_reference {name : String} {target : SchemaNode} (found : tree.get? name = some target) (value : Json) :
    tree.admits (.reference name) value = tree.admits target value := by
  cases value <;> simp only [admits, admitsType, resolve?_reference found]

theorem admitsItems_iff {item : SchemaNode} {elements : List Json} :
    tree.admitsItems item elements = true ↔ ∀ element ∈ elements, tree.admits item element = true := by
  induction elements with
  | nil => simp [admitsItems]
  | cons element rest ih => simp [admitsItems, ih]

theorem admitsMembers_iff {properties : List (String × SchemaNode)} {values : MapValues SchemaNode}
    {members : List (String × Json)} :
    tree.admitsMembers properties values members = true ↔
      ∀ name value, (name, value) ∈ members → ∀ node, SchemaNode.memberNode? properties values name = some node →
        tree.admits node value = true := by
  induction members with
  | nil => simp [admitsMembers]
  | cons head rest ih =>
    obtain ⟨name, value⟩ := head
    cases chosen : SchemaNode.memberNode? properties values name <;> simp [admitsMembers, ih, chosen, or_imp, forall_and]

theorem admits_object {properties : List (String × SchemaNode)} {values : MapValues SchemaNode} {facets : ObjectFacets}
    {value : Json} :
    tree.admits (.object properties values facets) value = true ↔
      ∃ members, value = .object members ∧ (∀ name ∈ facets.required, Table.contains members name = true) ∧
        ∀ name part, (name, part) ∈ members → ∀ node, SchemaNode.memberNode? properties values name = some node →
          tree.admits node part = true := by
  cases value <;>
    simp [admits, admitsType, SchemaNode.typeName?, Conformance.hasType, admitsMembers_iff]

theorem admits_array {items : Option SchemaNode} {annotations : Annotations} {value : Json} :
    tree.admits (.array items annotations) value = true ↔
      ∃ elements, value = .array elements ∧
        ∀ item, items = some item → ∀ element ∈ elements, tree.admits item element = true := by
  cases items <;> cases value <;>
    simp [admits, admitsType, SchemaNode.typeName?, Conformance.hasType, admitsItems_iff]

/-- An open object admits every object. -/
theorem admits_openMap {value : Json} : tree.admits .openMap value = true ↔ ∃ members, value = .object members := by
  rw [SchemaNode.openMap, admits_object]
  simp [SchemaNode.memberNode?, MapValues.shape?, Table.lookup, ObjectFacets.openMap]

/-- A scalar is judged without the tree. -/
theorem admits_scalar (tree other : SchemaTree) (kind : Option ScalarKind) (annotations : Annotations) (value : Json) :
    other.admits (.scalar kind annotations) value = tree.admits (.scalar kind annotations) value := by
  cases value <;> simp [admits, admitsType]

theorem exists_object_of_admits {node : SchemaNode} {properties : List (String × SchemaNode)}
    {values : MapValues SchemaNode} {facets : ObjectFacets}
    (ends : tree.resolve? node = some (.object properties values facets)) {value : Json}
    (admitted : tree.admits node value = true) : ∃ members, value = .object members := by
  cases value with
  | object members => exact ⟨members, rfl⟩
  | _ => simp [admits, admitsType, ends, SchemaNode.typeName?, Conformance.hasType] at admitted

/-- Walking down a value, the expansion of a node cuts off the recursion of a component at a part of the value. -/
inductive CutAt (tree : SchemaTree) : List String → SchemaNode → Json → String → Json → Prop
  | back {stack name value} : name ∈ stack → CutAt tree stack (.reference name) value name value
  | into {stack name target value other part} : tree.get? name = some target → name ∉ stack →
      CutAt tree (name :: stack) target value other part → CutAt tree stack (.reference name) value other part
  | member {stack properties values facets members name value node other part} : (name, value) ∈ members →
      SchemaNode.memberNode? properties values name = some node → CutAt tree stack node value other part →
      CutAt tree stack (.object properties values facets) (.object members) other part
  | item {stack item annotations elements element other part} : element ∈ elements →
      CutAt tree stack item element other part →
      CutAt tree stack (.array (some item) annotations) (.array elements) other part

variable {stack : List String} {node expanded : SchemaNode} {cycles : List String} {value : Json}

theorem cutAt_opened {name other : String} {part : Json} (opened : name ∈ stack) :
    tree.CutAt stack (.reference name) value other part ↔ other = name ∧ part = value := by
  constructor
  · intro cut
    cases cut with
    | back => exact ⟨rfl, rfl⟩
    | into _ closed _ => exact absurd opened closed
  · rintro ⟨rfl, rfl⟩
    exact .back opened

theorem cutAt_open {name other : String} {target : SchemaNode} {part : Json} (found : tree.get? name = some target)
    (closed : name ∉ stack) :
    tree.CutAt stack (.reference name) value other part ↔ tree.CutAt (name :: stack) target value other part := by
  constructor
  · intro cut
    cases cut with
    | back opened => exact absurd opened closed
    | into again _ cut =>
      obtain rfl := Option.some.inj (found.symm.trans again)
      exact cut
  · exact .into found closed

/-- A part where recursion is cut off is admitted by the component that recurs. -/
theorem CutAt.admits {name : String} {part : Json} (cut : tree.CutAt stack node value name part)
    (admitted : tree.admits node value = true) : tree.admits (.reference name) part = true := by
  induction cut with
  | back => exact admitted
  | into found _ _ ih =>
    rw [admits_reference found] at admitted
    exact ih admitted
  | member inside chosen _ ih =>
    obtain ⟨members, same, _, each⟩ := admits_object.mp admitted
    obtain rfl := Json.object.inj same
    exact ih (each _ _ inside _ chosen)
  | item inside _ ih =>
    obtain ⟨elements, same, each⟩ := admits_array.mp admitted
    obtain rfl := Json.array.inj same
    exact ih (each _ rfl _ inside)

/-- The expansion reports every component whose recursion it cuts off. -/
theorem CutAt.mem_cycles {name : String} {part : Json} (cut : tree.CutAt stack node value name part)
    (done : tree.expandAfresh stack node = .ok (expanded, cycles)) : name ∈ cycles := by
  induction cut generalizing expanded cycles with
  | back opened =>
    obtain ⟨_, _, ⟨_, _, rfl⟩ | ⟨closed, _⟩⟩ := expandAfresh_reference done
    · exact List.mem_singleton_self _
    · exact absurd opened closed
  | into found closed _ ih =>
    rw [expandAfresh_open found closed] at done
    exact ih done
  | member _ chosen _ ih =>
    obtain ⟨_, _, _, _, _, each⟩ := expandAfresh_member done
    obtain ⟨_, _, cuts, fewer, inner⟩ := each _ _ chosen
    exact fewer (ih inner)
  | item _ _ ih =>
    obtain ⟨_, _, inItem⟩ := expandAfresh_array done
    cases inItem with
    | some inner => exact ih inner

/-- Of what a node admits, its expansion admits the values with objects wherever recursion is cut off. Both judge alike
until a reference is cut off, and there the open object has the last word. -/
theorem admits_expandAfresh_iff (done : tree.expandAfresh stack node = .ok (expanded, cycles))
    (admitted : tree.admits node value = true) :
    empty.admits expanded value = true ↔
      ∀ name part, tree.CutAt stack node value name part → ∃ members, part = .object members := by
  induction stack, node using walk_induction tree generalizing expanded cycles value with
  | object stack properties values facets inMembers =>
    obtain ⟨nodes, shapes, rfl, _, absent, present⟩ := expandAfresh_member done
    obtain ⟨members, rfl, required, each⟩ := admits_object.mp admitted
    rw [admits_object]
    constructor
    · rintro ⟨_, same, _, eachExpanded⟩ other part cut
      obtain rfl := Json.object.inj same
      cases cut with
      | member inside chosen cut =>
        obtain ⟨result, chosenToo, cuts, _, inner⟩ := present _ _ chosen
        exact (inMembers _ _ chosen inner (each _ _ inside _ chosen)).mp (eachExpanded _ _ inside _ chosenToo) _ _ cut
    · intro objects
      refine ⟨members, rfl, required, fun name part inside result chosenToo => ?_⟩
      cases chosen : SchemaNode.memberNode? properties values name with
      | none =>
        rw [absent name chosen] at chosenToo
        cases chosenToo
      | some node =>
        obtain ⟨other, same, cuts, _, inner⟩ := present name node chosen
        obtain rfl := Option.some.inj (same.symm.trans chosenToo)
        exact (inMembers name node chosen inner (each name part inside node chosen)).mpr
          fun other below cut => objects other below (.member inside chosen cut)
  | array stack items annotations inItems =>
    obtain ⟨results, rfl, inItem⟩ := expandAfresh_array done
    obtain ⟨elements, rfl, each⟩ := admits_array.mp admitted
    rw [admits_array]
    constructor
    · rintro ⟨_, same, eachExpanded⟩ other part cut
      obtain rfl := Json.array.inj same
      cases cut with
      | item inside cut =>
        cases inItem with
        | some inner =>
          exact (inItems _ rfl inner (each _ rfl _ inside)).mp (eachExpanded _ rfl _ inside) _ _ cut
    · intro objects
      refine ⟨elements, rfl, fun result same element inside => ?_⟩
      subst same
      cases inItem with
      | some inner =>
        exact (inItems _ rfl inner (each _ rfl _ inside)).mpr fun other below cut => objects other below (.item inside cut)
  | scalar stack kind annotations =>
    rw [expandAfresh_scalar] at done
    obtain ⟨rfl, rfl⟩ := Prod.mk.inj (Except.ok.inj done)
    rw [admits_scalar tree empty, iff_true_left admitted]
    rintro _ _ ⟨⟩
  | reference stack name inTarget =>
    obtain ⟨target, found, ⟨opened, rfl, rfl⟩ | ⟨closed, done⟩⟩ := expandAfresh_reference done
    · rw [admits_openMap]
      simp only [cutAt_opened opened, and_imp, forall_eq_apply_imp_iff, forall_eq]
    · rw [admits_reference found] at admitted
      simp only [cutAt_open found closed]
      exact inTarget target found closed done admitted

/-- A value that the root component admits is admitted by what the tree is flattened to just if it has objects
wherever recursion is cut off. So nothing is lost where all that recurs are objects. -/
theorem admits_flatten_iff {kind version : String} {flat : Flattened} (flattens : tree.flatten kind version = .ok flat) :
    ∃ root, tree.get? flat.root = some root ∧ ∀ value, tree.admits root value = true →
      (empty.admits flat.node value = true ↔
        ∀ name part, tree.CutAt [flat.root] root value name part → ∃ members, part = .object members) ∧
      ((∀ name ∈ flat.cycles, ∃ properties values facets,
          tree.resolve? (.reference name) = some (.object properties values facets)) →
        empty.admits flat.node value = true) := by
  obtain ⟨root, found, done⟩ := flatten_eq_ok flattens
  refine ⟨root, found, fun value admitted => ?_⟩
  have exactly := admits_expandAfresh_iff done admitted
  refine ⟨exactly, fun objects => exactly.mpr fun name part cut => ?_⟩
  obtain ⟨properties, values, facets, ends⟩ := objects name (cut.mem_cycles done)
  exact exists_object_of_admits ends (cut.admits admitted)

/-- A sheet has a sheet above it, and rows of rows without an end. -/
def sheetTree : SchemaTree :=
  ⟨[("Rows", .array (some (.reference "Rows")) .empty),
    ("Sheet", .object [("parent", .reference "Sheet"), ("spec", .reference "Rows")] .none ⟨[], false, .empty⟩)]⟩

def sheetFlat : Flattened where
  root := "Sheet"
  node := .object [("parent", .openMap), ("spec", .array (some .openMap) .empty)] .none ⟨[], false, .empty⟩
  cycles := ["Sheet", "Rows"]

theorem flatten_sheet : sheetTree.flatten "Sheet" "v1" = .ok sheetFlat := by cbv

theorem admits_flatten_iff_sheet :
    sheetTree.flatten "Sheet" "v1" = .ok sheetFlat ∧
    ∃ root, sheetTree.get? sheetFlat.root = some root ∧ ∀ value, sheetTree.admits root value = true →
      (empty.admits sheetFlat.node value = true ↔
        ∀ name part, sheetTree.CutAt [sheetFlat.root] root value name part → ∃ members, part = .object members) ∧
      ((∀ name ∈ sheetFlat.cycles, ∃ properties values facets,
          sheetTree.resolve? (.reference name) = some (.object properties values facets)) →
        empty.admits sheetFlat.node value = true) :=
  ⟨flatten_sheet, admits_flatten_iff flatten_sheet⟩

/-- One empty row among the rows is admitted by the sheet, and not by what the sheet is flattened to. -/
theorem row_not_admitted :
    sheetTree.flatten "Sheet" "v1" = .ok sheetFlat ∧
    ∃ root, sheetTree.get? sheetFlat.root = some root ∧
      sheetTree.admits root (.object [("spec", .array [.array []])]) = true ∧
      empty.admits sheetFlat.node (.object [("spec", .array [.array []])]) = false :=
  ⟨flatten_sheet, _, rfl, by cbv, by cbv⟩

end SchemaTree

end ResourceKinds
