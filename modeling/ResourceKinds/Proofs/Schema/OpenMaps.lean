import ResourceKinds.Proofs.Schema.Places
import ResourceKinds.Proofs.Schema.Resolution

namespace ResourceKinds

namespace SchemaTree

variable {tree : SchemaTree} {stack : List String} {node expanded : SchemaNode} {cycles : List String}

/-- A node that expands to a scalar stands for it: there are only references on the way. -/
theorem resolve?_of_expandAfresh {kind : Option ScalarKind} {annotations : Annotations}
    (done : tree.expandAfresh stack node = .ok (.scalar kind annotations, cycles)) :
    tree.resolve? node = some (.scalar kind annotations) := by
  induction stack, node using expansion_induction tree generalizing cycles with
  | object stack properties values facets _ _ =>
    obtain ⟨members, shapes, impossible, _⟩ := expandAfresh_object done
    cases impossible
  | array stack items annotations _ =>
    obtain ⟨results, impossible, _⟩ := expandAfresh_array done
    cases impossible
  | scalar stack kind annotations =>
    rw [expandAfresh_scalar] at done
    obtain ⟨same, _⟩ := Prod.mk.inj (Except.ok.inj done)
    rw [resolve?_scalar, same]
  | reference stack name inTarget =>
    obtain ⟨target, found, ⟨_, impossible, _⟩ | ⟨closed, done⟩⟩ := expandAfresh_reference done
    · cases impossible
    · rw [resolve?_reference found]
      exact inTarget target found closed done

/-- A map shape that turns out to admit any value was a reference. -/
theorem exists_reference_of_untyped (typed : node.isUntyped = false)
    (done : tree.expandAfresh stack node = .ok (expanded, cycles)) (untyped : expanded.isUntyped = true) :
    ∃ name, node = .reference name ∧ tree.resolve? (.reference name) = some expanded := by
  cases expanded with
  | scalar kind annotations =>
    have ends := resolve?_of_expandAfresh done
    cases node with
    | reference name => exact ⟨name, rfl, ends⟩
    | object properties values facets => simp at ends
    | array items annotations => simp at ends
    | scalar kind annotations =>
      rw [resolve?_scalar] at ends
      rw [Option.some.inj ends, untyped] at typed
      cases typed
  | _ => cases untyped

/-- Where an object of the flattened tree has a map shape that admits any value, the tree has an object with the
same names and facets whose map shape is a reference, and the reference leads there. -/
theorem exists_referring_object (tidy : tree.Tidy) {kind version : String} {flat : Flattened}
    (flattens : tree.flatten kind version = .ok flat) {place : SchemaPlace} {sources : List (String × SchemaNode)}
    {shape : SchemaNode} {declared : ObjectFacets}
    (found : flat.node.at? place = some (.object sources (.shaped shape) declared)) (untyped : shape.isUntyped = true) :
    ∃ originals name, tree.Holds (.object originals (.shaped (.reference name)) declared) ∧
      Table.keys originals = Table.keys sources ∧ tree.resolve? (.reference name) = some shape := by
  obtain ⟨root, inTree, expands⟩ := flatten_eq_ok flattens
  obtain impossible | ⟨stack, source, cycles, held, direct, done⟩ :=
    exists_origin (holds_component inTree) expands found
  · cases impossible
  cases source with
  | object originals values facets =>
    obtain ⟨members, shapes, same, derived, _, inShape⟩ := expandAfresh_object done
    obtain ⟨rfl, rfl, rfl⟩ := SchemaNode.object.inj same
    obtain ⟨original, cuts, rfl, inner⟩ := Expands.shape_origin inShape
    cases held.definite tidy with
    | object _ _ typed =>
      obtain ⟨name, rfl, ends⟩ := exists_reference_of_untyped (typed _ rfl) inner untyped
      exact ⟨originals, name, held, derived.keys_eq.symm, ends⟩
  | array items annotations =>
    obtain ⟨results, impossible, _⟩ := expandAfresh_array done
    cases impossible
  | scalar kind annotations =>
    rw [expandAfresh_scalar] at done
    cases (Prod.mk.inj (Except.ok.inj done)).1
  | reference name => exact absurd rfl (direct name)

end SchemaTree

/-- How an object of a structural schema follows from an object with this map shape and these facets. -/
structure OpensFrom (shapes : MapValues SchemaNode) (declared : ObjectFacets) (values : Option StructuralNode)
    (preserve : Bool) : Prop where
  /-- It is marked when that object is or when any value fits its map shape. -/
  marked : preserve = true ↔ declared.preserve = true ∨ shapes = .unconstrained ∨
    ∃ shape, shapes = .shaped shape ∧ shape.isUntyped = true
  /-- Any other map shape stays. -/
  kept : ∀ shape, shapes = .shaped shape → shape.isUntyped = false →
    ∃ form, shape.toStructural = .ok form ∧ values = some form
  /-- There is no other one. -/
  shaped : ∀ form, values = some form → ∃ shape, shapes = .shaped shape ∧ shape.isUntyped = false

theorem SchemaNode.opensFrom_of_toStructural {source : SchemaNode} {properties : List (String × StructuralNode)}
    {values : Option StructuralNode} {facets : ObjectFacets}
    (formed : source.toStructural = .ok (.object properties values facets)) :
    ∃ sources shapes declared, source = .object sources shapes declared ∧
      OpensFrom shapes declared values facets.preserve := by
  cases source with
  | object sources shapes declared =>
    refine ⟨sources, shapes, declared, rfl, ?_⟩
    obtain ⟨forms, _, ⟨rfl, same⟩ | ⟨rfl | ⟨shape, rfl, untyped⟩, same⟩ | ⟨shape, form, rfl, typed, inner, same⟩⟩ :=
      toStructural_object formed
    all_goals obtain ⟨rfl, rfl, rfl⟩ := StructuralNode.object.inj same
    · exact ⟨by simp, nofun, nofun⟩
    · exact ⟨by simp, nofun, nofun⟩
    · refine ⟨by simp [untyped], fun other same typed => ?_, nofun⟩
      obtain rfl := MapValues.shaped.inj same
      rw [untyped] at typed
      cases typed
    · refine ⟨by simp [typed], fun other same _ => ?_, fun _ _ => ⟨shape, rfl, typed⟩⟩
      obtain rfl := MapValues.shaped.inj same
      exact ⟨form, inner, rfl⟩
  | array items annotations =>
    obtain ⟨results, impossible, _⟩ := toStructural_array formed
    cases impossible
  | scalar kind annotations => cases formed
  | reference name => cases formed

/-- The structural form of an object is an object. -/
theorem SchemaNode.exists_object_of_toStructural {sources : List (String × SchemaNode)}
    {shapes : MapValues SchemaNode} {declared : ObjectFacets} {form : StructuralNode}
    (formed : (object sources shapes declared).toStructural = .ok form) :
    ∃ properties values facets, form = .object properties values facets := by
  obtain ⟨forms, _, ⟨_, same⟩ | ⟨_, same⟩ | ⟨_, _, _, _, _, same⟩⟩ := toStructural_object formed
  all_goals exact ⟨_, _, _, same⟩

/-- A schema with a type or with a shape of its own, and one that is found under a name. -/
def Json.Constrains (document : Json) : Prop :=
  ∃ members : Fields Json, document = .object members ∧
    ∃ key ∈ ["type", "properties", "items", "additionalProperties", "$ref"], members.contains key = true

/-- A map shape in the document of an object says something of its values. -/
theorem StructuralNode.constrains_additionalProperties {properties : List (String × StructuralNode)}
    {values : Option StructuralNode} {facets : ObjectFacets} (tidy : (object properties values facets).toNode.Tidy)
    (definite : (object properties values facets).toNode.Definite) {shape : Json}
    (written : (object properties values facets).toJson.get? "additionalProperties" = some shape) :
    shape.Constrains := by
  rw [(get?_toJson_object tidy).2.1] at written
  obtain ⟨node, rfl, rfl⟩ := Option.map_eq_some_iff.mp written
  have below : (object properties (some node) facets).toNode.below? .value = some node.toNode := rfl
  cases definite with
  | object _ _ typed =>
    obtain ⟨members, same, constrained⟩ := SchemaNode.isUnconstrained_toJson (tidy.of_below? below) (typed _ rfl)
    rw [toJson_toNode] at same
    simp only [isUnconstrained, Bool.not_eq_false', List.any_eq_true] at constrained
    exact ⟨members, same, constrained⟩

namespace Synthesized

variable {root : String} {cycles : List String} {properties : List (String × StructuralNode)}
  {values : Option StructuralNode} {facets : ObjectFacets}

/-- Without its `metadata`, the root has below it what it had before. -/
theorem at?_ofRoot_cons (step : SchemaStep) (place : SchemaPlace) :
    (ofRoot root cycles properties values facets).schema.node.at? (step :: place) =
      if step = .property StructuralSchema.metadataProperty then none
      else (StructuralNode.object properties values facets).at? (step :: place) := by
  have below : (ofRoot root cycles properties values facets).schema.node.below? step =
      if step = .property StructuralSchema.metadataProperty then none
      else (StructuralNode.object properties values facets).below? step := by
    cases step with
    | property name =>
      by_cases same : name = StructuralSchema.metadataProperty
      · subst same
        exact (Table.lookup_erase_self properties StructuralSchema.metadataProperty).trans (if_pos rfl).symm
      · rw [if_neg (by simpa using same)]
        exact Table.lookup_erase_of_ne same
    | value => rfl
    | item => rfl
  rw [StructuralNode.at?, below, StructuralNode.at?]
  split <;> rfl

theorem at?_of_ofRoot {step : SchemaStep} {place : SchemaPlace} {part : StructuralNode}
    (found : (ofRoot root cycles properties values facets).schema.node.at? (step :: place) = some part) :
    (StructuralNode.object properties values facets).at? (step :: place) = some part := by
  rw [at?_ofRoot_cons] at found
  split at found
  · cases found
  · exact found

end Synthesized

namespace StructuralSchema

/-- The documents of the properties stand in the document of the schema. -/
theorem at?_inDocument (schema : StructuralSchema) {name : String} {place : SchemaPlace} {part : StructuralNode}
    (tidy : ∀ member ∈ schema.properties, member.2.toNode.Tidy)
    (found : schema.node.at? (.property name :: place) = some part) :
    schema.toJson.at? (SchemaPlace.inDocument (.property name :: place)) = some part.toJson := by
  obtain ⟨property, declared, later⟩ := StructuralNode.at?_cons_eq_some.mp found
  have declared : Table.lookup schema.properties name = some property := declared
  have here : SchemaPlace.inDocument (.property name :: place) =
      .member "properties" :: .member name :: SchemaPlace.inDocument place := rfl
  rw [here, Json.at?_member, schema.get?_properties, Option.bind_some, Json.at?_member, propertiesJson,
    StructuralNode.get?_toJsonEach, declared]
  exact StructuralNode.at?_inDocument (tidy _ (Table.mem_of_lookup declared)) later

end StructuralSchema

namespace SchemaTree

/-- What a synthesized schema keeps of the openness of its tree. -/
structure KeepsOpenness (tree : SchemaTree) (flat : Flattened) (synthesized : Synthesized) : Prop where
  /-- Every object, the root among them, follows from the object of the flattened tree at the same place. -/
  opens : ∀ place properties values facets,
    synthesized.schema.node.at? place = some (.object properties values facets) →
    ∃ sources shapes declared, flat.node.at? place = some (.object sources shapes declared) ∧
      OpensFrom shapes declared values facets.preserve
  /-- No object of the flattened tree is left out, the metadata of the root apart. -/
  complete : ∀ place sources shapes declared, flat.node.at? place = some (.object sources shapes declared) →
    place.head? ≠ some (.property StructuralSchema.metadataProperty) →
    ∃ properties values facets, synthesized.schema.node.at? place = some (.object properties values facets)
  /-- Where any value fits a map shape of the flattened tree, the tree has a reference to such a node. -/
  referred : ∀ place sources shape declared, flat.node.at? place = some (.object sources (.shaped shape) declared) →
    shape.isUntyped = true →
    ∃ originals name, tree.Holds (.object originals (.shaped (.reference name)) declared) ∧
      Table.keys originals = Table.keys sources ∧ tree.resolve? (.reference name) = some shape
  /-- Below the root, the document of an object has the mark, and no map shape that any value fits. -/
  rendered : ∀ step place properties values facets,
    synthesized.schema.node.at? (step :: place) = some (.object properties values facets) →
    (StructuralNode.object properties values facets).toJson.get? preserveKey =
        (if facets.preserve then some (.bool true) else none) ∧
      ∀ shape, (StructuralNode.object properties values facets).toJson.get? "additionalProperties" = some shape →
        shape.Constrains
  /-- These documents stand in the document of the schema. -/
  documents : ∀ name place part, synthesized.schema.node.at? (.property name :: place) = some part →
    synthesized.schema.toJson.at? (SchemaPlace.inDocument (.property name :: place)) = some part.toJson
  /-- The root has no metadata. -/
  noMetadata : Table.lookup synthesized.schema.properties StructuralSchema.metadataProperty = none ∧
    StructuralSchema.metadataProperty ∉ synthesized.schema.facets.required ∧
    StructuralSchema.metadataProperty ∉ synthesized.subresources

/-- The objects of a synthesized schema are open exactly where the tree is, and all other map shapes are kept. -/
theorem keepsOpenness_of_synthesize {document : Json} (wellFormed : document.WellFormed) {tree : SchemaTree}
    (reads : read document = .ok tree) {kind version : String} {synthesized : Synthesized}
    (built : tree.synthesize kind version = .ok synthesized) :
    ∃ flat, tree.flatten kind version = .ok flat ∧ tree.KeepsOpenness flat synthesized := by
  have tidyTree := tidy_of_read wellFormed reads
  obtain ⟨standalone, subresources⟩ := standalone_of_synthesize tidyTree.tidy built
  obtain ⟨flat, properties, values, facets, flattens, formed, rfl⟩ := synthesize_eq_ok built
  obtain ⟨tidy, definite⟩ := tidy_of_flatten tidyTree.tidy flattens formed
  refine ⟨flat, flattens, ?opens, ?complete,
    fun place sources shape declared => exists_referring_object tidyTree flattens, ?rendered,
    fun name place part => StructuralSchema.at?_inDocument _ standalone.tidy,
    standalone.noMetadata, ?required, ?subresources⟩
  case opens =>
    intro place inPart shape marks found
    cases place with
    | nil =>
      obtain ⟨_, rfl, rfl⟩ := StructuralNode.object.inj (Option.some.inj found)
      obtain ⟨sources, shapes, declared, same, opens⟩ := SchemaNode.opensFrom_of_toStructural formed
      exact ⟨sources, shapes, declared, congrArg some same, opens⟩
    | cons step rest =>
      obtain ⟨source, there, inner⟩ := SchemaNode.at?_toStructural formed (Synthesized.at?_of_ofRoot found)
      obtain ⟨sources, shapes, declared, rfl, opens⟩ := SchemaNode.opensFrom_of_toStructural inner
      exact ⟨sources, shapes, declared, there, opens⟩
  case complete =>
    intro place sources shapes declared found outside
    cases place with
    | nil => exact ⟨_, _, _, rfl⟩
    | cons step rest =>
      obtain ⟨part, there, inner⟩ := SchemaNode.exists_at?_toStructural formed found rfl
      obtain ⟨inPart, shape, marks, rfl⟩ := SchemaNode.exists_object_of_toStructural inner
      have remains : step ≠ .property StructuralSchema.metadataProperty := fun same => outside (congrArg some same)
      refine ⟨inPart, shape, marks, ?_⟩
      rw [Synthesized.at?_ofRoot_cons, if_neg remains, there]
  case rendered =>
    intro step place inPart shape marks found
    have there := StructuralNode.at?_toNode (.object properties values facets) (step :: place)
    rw [Synthesized.at?_of_ofRoot found, Option.map_some] at there
    have tidyPart := tidy.of_at? there
    exact ⟨(StructuralNode.get?_toJson_object tidyPart).2.2,
      fun _ => StructuralNode.constrains_additionalProperties tidyPart (definite.of_at? there)⟩
  case required => simp [Synthesized.ofRoot]
  case subresources =>
    intro inside
    rw [subresources] at inside
    exact Table.lookup_eq_none.mp standalone.noMetadata (List.mem_filter.mp inside).1

/-- Maps of any values at the root and below it: as the values of a map, behind two references, and where the
board is cut off inside itself. -/
def board : Json :=
  .object [("components", .object [("schemas", .object [
    ("Alias", .object [("$ref", .string "#/components/schemas/Any")]),
    ("Any", .object [("description", .string "anything")]),
    ("Board", .object [
      ("additionalProperties", .object [("type", .string "string")]),
      ("properties", .object [
        ("metadata", .object [("additionalProperties", .bool true)]),
        ("spec", .object [
          ("properties", .object [
            ("columns", .object [
              ("items", .object [
                ("additionalProperties", .object [
                  ("additionalProperties", .object []), ("type", .string "object")])])]),
            ("labels", .object [("additionalProperties", .object [("$ref", .string "#/components/schemas/Alias")])]),
            ("parent", .object [("$ref", .string "#/components/schemas/Board")])])])]),
      ("required", .array [.string "metadata", .string "spec"])])])])]

def boardTree : SchemaTree :=
  ⟨[("Alias", .reference "Any"), ("Any", .scalar none ⟨some "anything", false, []⟩),
    ("Board", .object
      [("metadata", .object [] .unconstrained ⟨[], false, .empty⟩),
        ("spec", .object
          [("columns", .array
              (some (.object [] (.shaped (.object [] .unconstrained ⟨[], false, .empty⟩)) ⟨[], false, .empty⟩)) .empty),
            ("labels", .object [] (.shaped (.reference "Alias")) ⟨[], false, .empty⟩),
            ("parent", .reference "Board")]
          .none ⟨[], false, .empty⟩)]
      (.shaped (.scalar (some .string) .empty)) ⟨["metadata", "spec"], false, .empty⟩)]⟩

def boardSynthesized : Synthesized where
  root := "Board"
  schema := {
    properties := [
      ("spec", .object
        [("columns", .array (some (.object [] (some (.object [] none .openMap)) ⟨[], false, .empty⟩)) .empty),
          ("labels", .object [] none .openMap), ("parent", .object [] none .openMap)]
        none ⟨[], false, .empty⟩)]
    values := some (.scalar (some .string) .empty)
    facets := ⟨["spec"], false, .empty⟩ }
  subresources := []
  openMapFallbacks := ["Board"]

theorem wellFormed_board : board.WellFormed := by
  simp only [board, Json.WellFormed, Json.WellFormedMembers, Json.WellFormedItems, Table.Ascending, Table.keys]
  decide

theorem read_board : read board = .ok boardTree := by rfl

theorem synthesize_board : boardTree.synthesize "Board" "v1" = .ok boardSynthesized := by cbv

theorem keepsOpenness_of_synthesize_board :
    board.WellFormed ∧ read board = .ok boardTree ∧ boardTree.synthesize "Board" "v1" = .ok boardSynthesized ∧
    ∃ flat, boardTree.flatten "Board" "v1" = .ok flat ∧ boardTree.KeepsOpenness flat boardSynthesized :=
  ⟨wellFormed_board, read_board, synthesize_board,
    keepsOpenness_of_synthesize wellFormed_board read_board synthesize_board⟩

end SchemaTree

end ResourceKinds
