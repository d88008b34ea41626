import ResourceKinds.Proofs.Schema.Resynthesis

namespace ResourceKinds

/-- A step from a schema to one that lies directly below it. -/
inductive SchemaStep where
  | property (name : String)
  /-- To the shape of the values of a map. -/
  | value
  | item
deriving DecidableEq

/-- A place in a schema, from the outside in. -/
abbrev SchemaPlace := List SchemaStep

theorem Json.at?_member (value : Json) (name : String) (path : Json.Path) :
    value.at? (.member name :: path) = (value.get? name).bind (·.at? path) := by
  cases value with
  | object members =>
    simp only [Json.at?, Json.get?]
    cases Table.lookup members name <;> rfl
  | _ => rfl

namespace SchemaStep

/-- The keywords under which the document of a schema has the one that the step leads to. -/
def keywords : SchemaStep → Json.Path
  | .property name => [.member "properties", .member name]
  | .value => [.member "additionalProperties"]
  | .item => [.member "items"]

end SchemaStep

namespace SchemaPlace

/-- Where the document of a schema has the one at the place. -/
def inDocument (place : SchemaPlace) : Json.Path := place.flatMap SchemaStep.keywords

end SchemaPlace

namespace SchemaNode

/-- The node that a step leads to. References are not followed. -/
def below? : SchemaNode → SchemaStep → Option SchemaNode
  | .object properties _ _, .property name => Table.lookup properties name
  | .object _ values _, .value => values.shape?
  | .array items _, .item => items
  | _, _ => none

def at? (node : SchemaNode) : SchemaPlace → Option SchemaNode
  | [] => some node
  | step :: rest => (node.below? step).bind (·.at? rest)

theorem at?_cons_eq_some {node part : SchemaNode} {step : SchemaStep} {rest : SchemaPlace} :
    node.at? (step :: rest) = some part ↔ ∃ next, node.below? step = some next ∧ next.at? rest = some part :=
  Option.bind_eq_some_iff

theorem at?_append (node : SchemaNode) (place rest : SchemaPlace) :
    node.at? (place ++ rest) = (node.at? place).bind (·.at? rest) := by
  induction place generalizing node with
  | nil => rfl
  | cons step later ih =>
    rw [List.cons_append, at?, at?]
    cases node.below? step with
    | none => rfl
    | some next => exact ih next

/-- What lies directly below a node is a property or the map shape of an object, or the items of an array. -/
theorem below?_eq_some {node part : SchemaNode} {step : SchemaStep} (found : node.below? step = some part) :
    (∃ name properties values facets, node = .object properties values facets ∧
        Table.lookup properties name = some part) ∨
      (∃ properties facets, node = .object properties (.shaped part) facets) ∨
      ∃ annotations, node = .array (some part) annotations := by
  cases node with
  | object properties values facets =>
    cases step with
    | property name => exact .inl ⟨name, properties, values, facets, rfl, found⟩
    | value =>
      obtain rfl := MapValues.eq_shaped_of_shape? found
      exact .inr (.inl ⟨properties, facets, rfl⟩)
    | item => cases found
  | array items annotations =>
    cases step with
    | item =>
      obtain rfl : items = some part := found
      exact .inr (.inr ⟨annotations, rfl⟩)
    | property name => cases found
    | value => cases found
  | scalar kind annotations => cases step <;> cases found
  | reference name => cases step <;> cases found

theorem Tidy.of_below? {node part : SchemaNode} {step : SchemaStep} (tidy : node.Tidy)
    (found : node.below? step = some part) : part.Tidy := by
  obtain ⟨name, properties, values, facets, rfl, declared⟩ | ⟨properties, facets, rfl⟩ | ⟨annotations, rfl⟩ :=
    below?_eq_some found
  · cases tidy with
    | object _ inProperties => exact inProperties _ (Table.mem_of_lookup declared)
  · cases tidy with
    | object _ _ inValues => exact inValues part rfl
  · cases tidy with
    | array inItems => exact inItems part rfl

theorem Definite.of_below? {node part : SchemaNode} {step : SchemaStep} (definite : node.Definite)
    (found : node.below? step = some part) : part.Definite := by
  obtain ⟨name, properties, values, facets, rfl, declared⟩ | ⟨properties, facets, rfl⟩ | ⟨annotations, rfl⟩ :=
    below?_eq_some found
  · cases definite with
    | object inProperties => exact inProperties _ (Table.mem_of_lookup declared)
  · cases definite with
    | object _ inValues => exact inValues part rfl
  · cases definite with
    | array inItems => exact inItems part rfl

/-- What holds of a node and of all that lies directly below what it holds of is true at every place. -/
theorem holds_at {holds : SchemaNode → Prop}
    (below : ∀ node step part, holds node → node.below? step = some part → holds part) {node part : SchemaNode}
    {place : SchemaPlace} (whole : holds node) (found : node.at? place = some part) : holds part := by
  induction place generalizing node with
  | nil =>
    obtain rfl := Option.some.inj found
    exact whole
  | cons step rest ih =>
    obtain ⟨next, first, later⟩ := at?_cons_eq_some.mp found
    exact ih (below _ _ _ whole first) later

theorem Tidy.of_at? {node part : SchemaNode} {place : SchemaPlace} (tidy : node.Tidy)
    (found : node.at? place = some part) : part.Tidy :=
  holds_at (fun _ _ _ => Tidy.of_below?) tidy found

theorem Definite.of_at? {node part : SchemaNode} {place : SchemaPlace} (definite : node.Definite)
    (found : node.at? place = some part) : part.Definite :=
  holds_at (fun _ _ _ => Definite.of_below?) definite found

end SchemaNode

namespace StructuralNode

/-- The node that a step leads to. -/
def below? : StructuralNode → SchemaStep → Option StructuralNode
  | .object properties _ _, .property name => Table.lookup properties name
  | .object _ values _, .value => values
  | .array items _, .item => items
  | _, _ => none

def at? (node : StructuralNode) : SchemaPlace → Option StructuralNode
  | [] => some node
  | step :: rest => (node.below? step).bind (·.at? rest)

theorem at?_cons_eq_some {node part : StructuralNode} {step : SchemaStep} {rest : SchemaPlace} :
    node.at? (step :: rest) = some part ↔ ∃ next, node.below? step = some next ∧ next.at? rest = some part :=
  Option.bind_eq_some_iff

theorem below?_toNode (node : StructuralNode) (step : SchemaStep) :
    node.toNode.below? step = (node.below? step).map toNode := by
  cases node with
  | object properties values facets =>
    cases step with
    | property name => cases values <;> exact lookup_toNodeEach properties name
    | value => cases values <;> rfl
    | item => cases values <;> rfl
  | array items annotations => cases items <;> cases step <;> rfl
  | scalar kind annotations => cases step <;> rfl

theorem at?_toNode (node : StructuralNode) (place : SchemaPlace) :
    node.toNode.at? place = (node.at? place).map toNode := by
  induction place generalizing node with
  | nil => rfl
  | cons step rest ih =>
    rw [SchemaNode.at?, at?, below?_toNode]
    cases node.below? step with
    | none => rfl
    | some next => exact ih next

/-- The parts of an object in its document. -/
theorem get?_toJson_object {properties : List (String × StructuralNode)} {values : Option StructuralNode}
    {facets : ObjectFacets} (tidy : (object properties values facets).toNode.Tidy) :
    (object properties values facets).toJson.get? "properties" =
        (if properties.isEmpty then none else some (.object (toJsonEach properties))) ∧
      (object properties values facets).toJson.get? "additionalProperties" = values.map toJson ∧
      (object properties values facets).toJson.get? preserveKey =
        (if facets.preserve then some (.bool true) else none) := by
  obtain ⟨shape, same, inValues⟩ : ∃ shape, (object properties values facets).toNode =
      .object (toNodeEach properties) shape facets ∧ SchemaNode.valuesJson? shape = values.map toJson := by
    cases values with
    | none => exact ⟨_, rfl, rfl⟩
    | some node => exact ⟨_, rfl, congrArg some node.toJson_toNode⟩
  obtain ⟨_, inProperties, _, inShape, mark⟩ := SchemaNode.lookup_objectMembers (toNodeEach properties) shape facets
  have each := toJsonEach_toNodeEach fun member (_ : member ∈ properties) => member.2.toJson_toNode
  rw [same] at tidy
  cases tidy with
  | object _ _ _ apart =>
    have part {key : String} (inside : key ∈ NodeKind.object.parts) :
        (object properties values facets).toJson.get? key =
          (SchemaNode.objectMembers (toNodeEach properties) shape facets).lookup key := by
      rw [← toJson_toNode, same, SchemaNode.toJson_object]
      exact apart.lookup_part inside
    rw [part (by simp [NodeKind.parts]), part (by simp [NodeKind.parts]), part (by simp [NodeKind.parts]),
      inProperties, inShape, mark, inValues, each, isEmpty_toNodeEach]
    exact ⟨rfl, rfl, rfl⟩

theorem get?_toJson_array {items : Option StructuralNode} {annotations : Annotations}
    (tidy : (array items annotations).toNode.Tidy) : (array items annotations).toJson.get? "items" =
      items.map toJson := by
  have same : (array items annotations).toNode = .array (items.map toNode) annotations := by cases items <;> rfl
  rw [same] at tidy
  cases tidy with
  | array _ apart =>
    rw [← toJson_toNode, same, SchemaNode.toJson_array]
    refine (apart.lookup_part (by simp [NodeKind.parts])).trans ((SchemaNode.lookup_arrayMembers _).2.trans ?_)
    cases items with
    | none => rfl
    | some item => exact congrArg some item.toJson_toNode

theorem get?_properties {properties : List (String × StructuralNode)} {values : Option StructuralNode}
    {facets : ObjectFacets} (tidy : (object properties values facets).toNode.Tidy) {name : String}
    {node : StructuralNode} (declared : Table.lookup properties name = some node) :
    (object properties values facets).toJson.get? "properties" = some (.object (toJsonEach properties)) := by
  have nonempty : properties.isEmpty = false := by
    cases properties with
    | nil => cases declared
    | cons first rest => rfl
  rw [(get?_toJson_object tidy).1, nonempty, if_neg (by decide)]

/-- The document of a node has those of the nodes directly below it where the keywords of the step lead to. -/
theorem at?_keywords {node next : StructuralNode} {step : SchemaStep} (tidy : node.toNode.Tidy)
    (found : node.below? step = some next) (path : Json.Path) :
    node.toJson.at? (step.keywords ++ path) = next.toJson.at? path := by
  cases node with
  | object properties values facets =>
    cases step with
    | property name =>
      have declared : Table.lookup properties name = some next := found
      simp only [SchemaStep.keywords, List.cons_append, List.nil_append, Json.at?_member, get?_properties tidy declared,
        Option.bind_some, get?_toJsonEach, declared, Option.map_some]
    | value =>
      obtain rfl : values = some next := found
      simp only [SchemaStep.keywords, List.cons_append, List.nil_append, Json.at?_member,
        (get?_toJson_object tidy).2.1, Option.map_some, Option.bind_some]
    | item => cases found
  | array items annotations =>
    cases step with
    | item =>
      obtain rfl : items = some next := found
      simp only [SchemaStep.keywords, List.cons_append, List.nil_append, Json.at?_member, get?_toJson_array tidy,
        Option.map_some, Option.bind_some]
    | property name => cases found
    | value => cases found
  | scalar kind annotations => cases step <;> cases found

/-- Every node of a schema is rendered at its place in the document. -/
theorem at?_inDocument {node part : StructuralNode} {place : SchemaPlace} (tidy : node.toNode.Tidy)
    (found : node.at? place = some part) : node.toJson.at? place.inDocument = some part.toJson := by
  induction place generalizing node with
  | nil =>
    obtain rfl := Option.some.inj found
    rfl
  | cons step rest ih =>
    obtain ⟨next, first, later⟩ := at?_cons_eq_some.mp found
    have tidyNext : next.toNode.Tidy := tidy.of_below? (by rw [below?_toNode, first]; rfl)
    have here : SchemaPlace.inDocument (step :: rest) = step.keywords ++ SchemaPlace.inDocument rest :=
      List.flatMap_cons
    rw [here, at?_keywords tidy first]
    exact ih tidyNext later

end StructuralNode

namespace SchemaNode

/-- The node that a step leads to, unless it is a map shape that admits any value. -/
def keptBelow? (node : SchemaNode) : SchemaStep → Option SchemaNode
  | .value => (node.below? .value).filter fun shape => !shape.isUntyped
  | step => node.below? step

theorem below?_of_keptBelow? {node part : SchemaNode} {step : SchemaStep} (kept : node.keptBelow? step = some part) :
    node.below? step = some part := by
  cases step with
  | value => exact (Option.filter_eq_some_iff.mp kept).1
  | property name => exact kept
  | item => exact kept

theorem isUntyped_or_keptBelow? {node part : SchemaNode} {step : SchemaStep} (found : node.below? step = some part) :
    part.isUntyped = true ∨ node.keptBelow? step = some part := by
  cases step with
  | value => cases untyped : part.isUntyped <;> simp [keptBelow?, found, untyped]
  | property name => exact .inr found
  | item => exact .inr found

/-- Directly below the structural form of a node lie the forms of what lies below the node, the map shapes that
admit any value apart. -/
theorem below?_toStructural {node : SchemaNode} {form : StructuralNode} (formed : node.toStructural = .ok form)
    (step : SchemaStep) :
    Option.Rel (fun source part => source.toStructural = .ok part) (node.keptBelow? step) (form.below? step) := by
  cases node with
  | object properties values facets =>
    obtain ⟨forms, each, shapes⟩ := toStructural_object formed
    cases step with
    | property name =>
      have related := (derived_of_toStructuralEach each).lookup name
      obtain ⟨_, rfl⟩ | ⟨_, rfl⟩ | ⟨_, _, _, _, _, rfl⟩ := shapes <;> exact related
    | value =>
      obtain ⟨rfl, rfl⟩ | ⟨rfl | ⟨shape, rfl, untyped⟩, rfl⟩ | ⟨shape, inShape, rfl, typed, inner, rfl⟩ := shapes
      · exact .none
      · exact .none
      · have dropped : (object properties (.shaped shape) facets).keptBelow? .value = none := by
          simp [keptBelow?, below?, MapValues.shape?, untyped]
        rw [dropped]
        exact .none
      · have kept : (object properties (.shaped shape) facets).keptBelow? .value = some shape := by
          simp [keptBelow?, below?, MapValues.shape?, typed]
        rw [kept]
        exact .some inner
    | item => obtain ⟨_, rfl⟩ | ⟨_, rfl⟩ | ⟨_, _, _, _, _, rfl⟩ := shapes <;> exact .none
  | array items annotations =>
    obtain ⟨results, rfl, inItems⟩ := toStructural_array formed
    cases step with
    | item => exact inItems
    | property name => exact .none
    | value => exact .none
  | scalar kind annotations =>
    obtain rfl := Except.ok.inj formed
    cases step <;> exact .none
  | reference name => cases formed

/-- Whatever there is at a place of the structural form comes from what the node has there. -/
theorem at?_toStructural {node : SchemaNode} {form part : StructuralNode} {place : SchemaPlace}
    (formed : node.toStructural = .ok form) (found : form.at? place = some part) :
    ∃ source, node.at? place = some source ∧ source.toStructural = .ok part := by
  induction place generalizing node form with
  | nil =>
    obtain rfl := Option.some.inj found
    exact ⟨node, rfl, formed⟩
  | cons step rest ih =>
    obtain ⟨next, first, later⟩ := StructuralNode.at?_cons_eq_some.mp found
    have related := below?_toStructural formed step
    rw [first] at related
    generalize kept : node.keptBelow? step = middle at related
    cases related with
    | some inner =>
      obtain ⟨source, there, outcome⟩ := ih inner later
      exact ⟨source, at?_cons_eq_some.mpr ⟨_, below?_of_keptBelow? kept, there⟩, outcome⟩

theorem not_below_of_isUntyped {node part : SchemaNode} {step : SchemaStep} (untyped : node.isUntyped = true) :
    node.below? step ≠ some part := by
  intro found
  cases node with
  | scalar kind annotations => cases step <;> cases found
  | _ => cases untyped

/-- Whatever a node has at a place is there in the structural form, too, unless it is a scalar of any type. -/
theorem exists_at?_toStructural {node source : SchemaNode} {form : StructuralNode} {place : SchemaPlace}
    (formed : node.toStructural = .ok form) (found : node.at? place = some source)
    (typed : source.isUntyped = false) : ∃ part, form.at? place = some part ∧ source.toStructural = .ok part := by
  induction place generalizing node form with
  | nil =>
    obtain rfl := Option.some.inj found
    exact ⟨form, rfl, formed⟩
  | cons step rest ih =>
    obtain ⟨next, first, later⟩ := at?_cons_eq_some.mp found
    rcases isUntyped_or_keptBelow? first with untyped | kept
    · cases rest with
      | nil =>
        obtain rfl := Option.some.inj later
        rw [untyped] at typed
        cases typed
      | cons step rest =>
        obtain ⟨_, below, _⟩ := at?_cons_eq_some.mp later
        exact absurd below (not_below_of_isUntyped untyped)
    · have related := below?_toStructural formed step
      rw [kept] at related
      generalize rewritten : form.below? step = result at related
      cases related with
      | some inner =>
        obtain ⟨part, there, outcome⟩ := ih inner later
        exact ⟨part, StructuralNode.at?_cons_eq_some.mpr ⟨_, rewritten, there⟩, outcome⟩

end SchemaNode

namespace SchemaTree

variable {tree : SchemaTree} {stack : List String} {node expanded part : SchemaNode} {cycles : List String}

/-- The node stands at some place of a component. -/
def Holds (tree : SchemaTree) (node : SchemaNode) : Prop :=
  ∃ name component place, tree.get? name = some component ∧ component.at? place = some node

theorem holds_component {name : String} (found : tree.get? name = some node) : tree.Holds node :=
  ⟨name, node, [], found, rfl⟩

theorem Holds.of_below? {step : SchemaStep} (holds : tree.Holds node) (found : node.below? step = some part) :
    tree.Holds part := by
  obtain ⟨name, component, place, inTree, there⟩ := holds
  refine ⟨name, component, place ++ [step], inTree, ?_⟩
  rw [SchemaNode.at?_append, there]
  exact SchemaNode.at?_cons_eq_some.mpr ⟨part, found, rfl⟩

theorem Holds.definite (tidy : tree.Tidy) (holds : tree.Holds node) : node.Definite := by
  obtain ⟨name, component, place, inTree, there⟩ := holds
  exact (tidy.definite _ (Table.mem_of_lookup inTree)).of_at? there

/-- Expansion goes into what lies directly below a node, or into the component that a reference names. -/
theorem below_induction (tree : SchemaTree) {motive : List String → SchemaNode → Prop}
    (direct : ∀ stack node, (∀ name, node ≠ .reference name) →
      (∀ step part, node.below? step = some part → motive stack part) → motive stack node)
    (reference : ∀ stack name, (∀ target, tree.get? name = some target → name ∉ stack →
      motive (name :: stack) target) → motive stack (.reference name))
    (stack : List String) (node : SchemaNode) : motive stack node := by
  induction stack, node using expansion_induction tree with
  | object stack properties values facets inProperties inValues =>
    refine direct _ _ (by simp) fun step part found => ?_
    cases step with
    | property name => exact inProperties (name, part) (Table.mem_of_lookup found)
    | value => exact inValues part (MapValues.eq_shaped_of_shape? found)
    | item => cases found
  | array stack items annotations inItems =>
    refine direct _ _ (by simp) fun step part found => ?_
    cases step with
    | item => exact inItems part found
    | property name => cases found
    | value => cases found
  | scalar stack kind annotations =>
    refine direct _ _ (by simp) fun step part found => ?_
    cases step <;> cases found
  | reference stack name inTarget => exact reference stack name inTarget

/-- Directly below an expanded node lie the expansions of what lies below the node. -/
theorem below?_expandAfresh (direct : ∀ name, node ≠ .reference name)
    (done : tree.expandAfresh stack node = .ok (expanded, cycles)) (step : SchemaStep) :
    Option.Rel (tree.Expands stack cycles) (node.below? step) (expanded.below? step) := by
  cases node with
  | object properties values facets =>
    obtain ⟨members, shapes, rfl, derived, _, inShape⟩ := expandAfresh_object done
    cases step with
    | property name => exact derived.lookup name
    | value => exact inShape
    | item => exact .none
  | array items annotations =>
    obtain ⟨results, rfl, inItem⟩ := expandAfresh_array done
    cases step with
    | item =>
      cases inItem with
      | none => exact .none
      | some inner => exact .some ⟨cycles, List.Subset.refl cycles, inner⟩
    | property name => exact .none
    | value => exact .none
  | scalar kind annotations =>
    rw [expandAfresh_scalar] at done
    obtain ⟨rfl, rfl⟩ := Prod.mk.inj (Except.ok.inj done)
    cases step <;> exact .none
  | reference name => exact absurd rfl (direct name)

/-- Whatever an expansion has at a place is an open object that was put there, or the expansion of a node that
the tree holds. -/
theorem exists_origin (held : tree.Holds node) (done : tree.expandAfresh stack node = .ok (expanded, cycles))
    {place : SchemaPlace} (found : expanded.at? place = some part) :
    part = .openMap ∨ ∃ stack source cycles, tree.Holds source ∧ (∀ name, source ≠ .reference name) ∧
      tree.expandAfresh stack source = .ok (part, cycles) := by
  induction stack, node using below_induction tree generalizing expanded cycles place with
  | direct stack node direct inParts =>
    cases place with
    | nil =>
      obtain rfl := Option.some.inj found
      exact .inr ⟨stack, node, cycles, held, direct, done⟩
    | cons step rest =>
      obtain ⟨next, first, later⟩ := SchemaNode.at?_cons_eq_some.mp found
      have related := below?_expandAfresh direct done step
      rw [first] at related
      generalize here : node.below? step = source at related
      cases related with
      | some expands =>
        obtain ⟨cuts, _, inner⟩ := expands
        exact inParts step _ here (held.of_below? here) inner later
  | reference stack name inTarget =>
    obtain ⟨target, inTree, ⟨_, rfl, _⟩ | ⟨closed, done⟩⟩ := expandAfresh_reference done
    · cases place with
      | nil => exact .inl (Option.some.inj found).symm
      | cons step rest =>
        obtain ⟨next, first, _⟩ := SchemaNode.at?_cons_eq_some.mp found
        cases step <;> cases first
    · exact inTarget target inTree closed (holds_component inTree) done found

end SchemaTree

end ResourceKinds
