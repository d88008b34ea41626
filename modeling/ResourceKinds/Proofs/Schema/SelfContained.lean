import ResourceKinds.Proofs.Schema.Resynthesis

namespace ResourceKinds

namespace Json

/-- The keywords, besides the properties, whose value is a schema or a list of schemas. -/
def schemaKeywords : List String := ["items", "additionalProperties", "allOf", "anyOf", "oneOf", "not"]

/-- The schemas directly below a schema. -/
inductive SubSchema (document : Json) : Json → Prop
  | property {properties : List (String × Json)} {member : String × Json}
      (found : document.get? "properties" = some (.object properties)) (inside : member ∈ properties) :
      SubSchema document member.2
  | value (keyword : String) {part : Json} (among : keyword ∈ schemaKeywords)
      (found : document.get? keyword = some part) : SubSchema document part
  | item (keyword : String) {parts : List Json} {part : Json} (among : keyword ∈ schemaKeywords)
      (found : document.get? keyword = some (.array parts)) (inside : part ∈ parts) : SubSchema document part

/-- The schemas at any depth of a schema, the schema itself among them. -/
inductive SchemaWithin : Json → Json → Prop
  | here {document} : SchemaWithin document document
  | deeper {document next part} (first : document.SubSchema next) (later : SchemaWithin next part) :
      SchemaWithin document part

/-- No schema at any depth is a reference. -/
def SelfContained (document : Json) : Prop := ∀ part, document.SchemaWithin part → part.get? "$ref" = none

theorem selfContained_iff (document : Json) : document.SelfContained ↔
    document.get? "$ref" = none ∧ ∀ part, document.SubSchema part → part.SelfContained := by
  constructor
  · intro contained
    exact ⟨contained _ .here, fun part first other within => contained other (.deeper first within)⟩
  · rintro ⟨noReference, parts⟩ part within
    cases within with
    | here => exact noReference
    | deeper first later => exact parts _ first part later

theorem selfContained_empty : (object []).SelfContained :=
  (selfContained_iff _).mpr ⟨rfl, fun part first => by cases first <;> contradiction⟩

/-- A schema is where its keywords put it: objects with the same keywords have the same schemas below. -/
theorem SubSchema.imp {document other part : Json} (first : document.SubSchema part)
    (same : ∀ keyword value, keyword = "properties" ∨ keyword ∈ schemaKeywords →
      document.get? keyword = some value → other.get? keyword = some value) : other.SubSchema part := by
  cases first with
  | property found inside => exact .property (same _ _ (.inl rfl) found) inside
  | value _ among found => exact .value _ among (same _ _ (.inr among) found)
  | item _ among found inside => exact .item _ among (same _ _ (.inr among) found) inside

end Json

namespace Annotations

variable {annotations : Annotations} {kind : NodeKind} {members : Fields Json}

theorem Own.mem_parts (own : Own kind members) {key : String} {value : Json}
    (found : members.lookup key = some value) : key ∈ kind.parts :=
  own.parts key (found ▸ Option.some_ne_none value)

/-- Neither the annotations nor the members they are written over hide anything of the other. -/
theorem Apart.lookup_write_iff (apart : annotations.Apart kind) (own : Own kind members) {key : String} {value : Json}
    (notText : key ≠ "description") (notMark : key ≠ "nullable") :
    (annotations.write members).lookup key = some value ↔
      annotations.extra.lookup key = some value ∨ members.lookup key = some value := by
  rw [Annotations.lookup_write apart.ascending, if_neg notMark, if_neg notText]
  by_cases inside : key ∈ kind.parts
  · have unclaimed := apart.unclaimed key (.keyword (NodeKind.mem_keywords.mpr (.inr (.inr inside))))
    simp [unclaimed]
  · simp [own.lookup_eq_none inside]

theorem Apart.subSchema_write (apart : annotations.Apart kind) (own : Own kind members) {part : Json} :
    (Json.object (annotations.write members)).SubSchema part ↔
      (Json.object annotations.extra).SubSchema part ∨ (Json.object members).SubSchema part := by
  have spelled {keyword : String} (among : keyword = "properties" ∨ keyword ∈ Json.schemaKeywords) :
      keyword ≠ "description" ∧ keyword ≠ "nullable" := by
    constructor <;> rintro rfl <;> simp [Json.schemaKeywords] at among
  have written {keyword : String} {value : Json} (among : keyword = "properties" ∨ keyword ∈ Json.schemaKeywords) :
      (annotations.write members).lookup keyword = some value ↔
        annotations.extra.lookup keyword = some value ∨ members.lookup keyword = some value :=
    apart.lookup_write_iff own (spelled among).1 (spelled among).2
  constructor
  · intro first
    cases first with
    | property found inside =>
      exact ((written (.inl rfl)).mp found).imp (.property · inside) (.property · inside)
    | value _ among found => exact ((written (.inr among)).mp found).imp (.value _ among) (.value _ among)
    | item _ among found inside =>
      exact ((written (.inr among)).mp found).imp (.item _ among · inside) (.item _ among · inside)
  · rintro (first | first)
    · exact first.imp fun _ _ among found => (written among).mpr (.inl found)
    · exact first.imp fun _ _ among found => (written among).mpr (.inr found)

/-- Annotations and members written together refer to nothing just if neither does. -/
theorem Apart.selfContained_write (apart : annotations.Apart kind) (own : Own kind members) :
    (Json.object (annotations.write members)).SelfContained ↔ (Json.object annotations.extra).SelfContained ∧
      ∀ part, (Json.object members).SubSchema part → part.SelfContained := by
  have noReference : (Json.object (annotations.write members)).get? "$ref" = none := apart.lookup_reference own
  have unclaimed : (Json.object annotations.extra).get? "$ref" = none := apart.unclaimed _ .reference
  simp only [Json.selfContained_iff (.object (annotations.write members)),
    Json.selfContained_iff (.object annotations.extra), noReference, unclaimed, true_and,
    apart.subSchema_write own, or_imp, forall_and]

end Annotations

namespace SchemaNode

/-- A node, or one below it, has these annotations. References are not followed. -/
inductive Carries (annotations : Annotations) : SchemaNode → Prop
  | object {properties values required preserve} :
      Carries annotations (.object properties values ⟨required, preserve, annotations⟩)
  | property {properties values facets} {member : String × SchemaNode} (inside : member ∈ properties)
      (below : Carries annotations member.2) : Carries annotations (.object properties values facets)
  | value {properties shape facets} (below : Carries annotations shape) :
      Carries annotations (.object properties (.shaped shape) facets)
  | array {items} : Carries annotations (.array items annotations)
  | item {item others} (below : Carries annotations item) : Carries annotations (.array (some item) others)
  | scalar {kind} : Carries annotations (.scalar kind annotations)

/-- None of the annotations at or below a node refers to anything. -/
def Plain (node : SchemaNode) : Prop :=
  ∀ annotations, node.Carries annotations → (Json.object annotations.extra).SelfContained

section Plain

variable {properties : List (String × SchemaNode)} {values : MapValues SchemaNode} {facets : ObjectFacets}
  {items : Option SchemaNode} {annotations : Annotations} {kind : Option ScalarKind}

theorem plain_object : (object properties values facets).Plain ↔
    (Json.object facets.annotations.extra).SelfContained ∧ (∀ member ∈ properties, member.2.Plain) ∧
      ∀ shape, values = .shaped shape → shape.Plain := by
  constructor
  · intro plain
    refine ⟨plain _ .object, fun member inside annotations below => plain _ (.property inside below), ?_⟩
    rintro shape rfl annotations below
    exact plain _ (.value below)
  · rintro ⟨own, each, shape⟩ annotations carried
    cases carried with
    | object => exact own
    | property inside below => exact each _ inside _ below
    | value below => exact shape _ rfl _ below

theorem plain_array : (array items annotations).Plain ↔
    (Json.object annotations.extra).SelfContained ∧ ∀ item, items = some item → item.Plain := by
  constructor
  · intro plain
    refine ⟨plain _ .array, ?_⟩
    rintro item rfl annotations below
    exact plain _ (.item below)
  · rintro ⟨own, inItem⟩ annotations carried
    cases carried with
    | array => exact own
    | item below => exact inItem _ rfl _ below

theorem plain_scalar : (scalar kind annotations).Plain ↔ (Json.object annotations.extra).SelfContained := by
  constructor
  · exact fun plain => plain _ .scalar
  · rintro own annotations ⟨⟩
    exact own

theorem plain_openMap : openMap.Plain :=
  plain_object.mpr ⟨Json.selfContained_empty, nofun, nofun⟩

end Plain

section Rendered

variable {properties : List (String × SchemaNode)} {values : MapValues SchemaNode} {facets : ObjectFacets}
  {items : Option SchemaNode} {kind : Option ScalarKind} {part : Json}

theorem toJson_ne_array (node : SchemaNode) (parts : List Json) : node.toJson ≠ .array parts := by
  cases node <;> simp [toJson_object, toJson_array, toJson]

theorem subSchema_objectMembers : (Json.object (objectMembers properties values facets)).SubSchema part ↔
    (∃ member ∈ properties, member.2.toJson = part) ∨ valuesJson? values = some part := by
  obtain ⟨_, inMembers, _, shape, _⟩ := lookup_objectMembers properties values facets
  have inShape {keyword : String} {value : Json} (among : keyword ∈ Json.schemaKeywords)
      (found : (objectMembers properties values facets).lookup keyword = some value) :
      valuesJson? values = some value := by
    have inside := own_objectMembers.mem_parts found
    obtain rfl : keyword = "additionalProperties" := by
      simp only [Json.schemaKeywords, NodeKind.parts, preserveKey, List.mem_cons, List.not_mem_nil, or_false]
        at among inside
      grind
    exact shape.symm.trans found
  constructor
  · intro first
    cases first with
    | property found inside =>
      rw [Json.get?, inMembers] at found
      split at found
      · cases found
      · obtain rfl := Json.object.inj (Option.some.inj found)
        rw [toJsonEach_eq_map] at inside
        obtain ⟨member, among, rfl⟩ := List.mem_map.mp inside
        exact .inl ⟨member, among, rfl⟩
    | value _ among found => exact .inr (inShape among found)
    | item _ among found inside =>
      have written := inShape among found
      cases values with
      | none => cases written
      | unconstrained => cases written
      | shaped node => exact absurd (Option.some.inj written) (node.toJson_ne_array _)
  · rintro (⟨member, inside, rfl⟩ | found)
    · have nonempty : properties.isEmpty = false := by cases properties <;> simp_all
      have found : (Json.object (objectMembers properties values facets)).get? "properties" =
          some (.object (toJsonEach properties)) := by
        rw [Json.get?, inMembers, nonempty]
        rfl
      have rendered : (member.1, member.2.toJson) ∈ toJsonEach properties := by
        rw [toJsonEach_eq_map]
        exact List.mem_map_of_mem inside
      have first := Json.SubSchema.property found rendered
      exact first
    · exact .value "additionalProperties" (by simp [Json.schemaKeywords]) (shape.trans found)

theorem subSchema_arrayMembers : (Json.object (arrayMembers items)).SubSchema part ↔
    ∃ item, items = some item ∧ item.toJson = part := by
  have inItems {keyword : String} {value : Json} (among : keyword ∈ Json.schemaKeywords)
      (found : (arrayMembers items).lookup keyword = some value) : ∃ item, items = some item ∧ item.toJson = value := by
    have inside := own_arrayMembers.mem_parts found
    obtain rfl : keyword = "items" := by
      simp only [Json.schemaKeywords, NodeKind.parts, List.mem_cons, List.not_mem_nil, or_false] at among inside
      grind
    exact Option.map_eq_some_iff.mp ((lookup_arrayMembers items).2.symm.trans found)
  constructor
  · intro first
    cases first with
    | property found _ =>
      have inside := own_arrayMembers.mem_parts found
      simp [NodeKind.parts] at inside
    | value _ among found => exact inItems among found
    | item _ among found _ =>
      obtain ⟨item, _, same⟩ := inItems among found
      exact absurd same (item.toJson_ne_array _)
  · rintro ⟨item, rfl, rfl⟩
    exact .value "items" (by simp [Json.schemaKeywords]) (lookup_arrayMembers _).2

theorem not_subSchema_scalarMembers : ¬ (Json.object (scalarMembers kind)).SubSchema part := by
  have typed {keyword : String} {value : Json}
      (found : (Json.object (scalarMembers kind)).get? keyword = some value) : keyword = "type" := by
    simpa [NodeKind.parts] using (own_scalarMembers : Annotations.Own (.scalar kind) _).mem_parts found
  intro first
  cases first with
  | property found _ => exact absurd (typed found) (by decide)
  | value keyword among found =>
    obtain rfl := typed found
    simp [Json.schemaKeywords] at among
  | item keyword among found _ =>
    obtain rfl := typed found
    simp [Json.schemaKeywords] at among

/-- The document of a node is self-contained just if the node has no reference and none is among its
annotations. -/
theorem selfContained_toJson {node : SchemaNode} (tidy : node.Tidy) :
    node.toJson.SelfContained ↔ node.references = [] ∧ node.Plain := by
  induction tidy with
  | @object properties values facets _ _ _ apart ihProperties ihValues =>
    rw [toJson_object, apart.selfContained_write own_objectMembers, plain_object, references_object_eq_nil]
    constructor
    · rintro ⟨own, parts⟩
      have each (member) (inside : member ∈ properties) :=
        (ihProperties member inside).mp (parts _ (subSchema_objectMembers.mpr (.inl ⟨member, inside, rfl⟩)))
      have inShape (shape) (same : values = .shaped shape) :=
        (ihValues shape same).mp (parts _ (subSchema_objectMembers.mpr (.inr (same ▸ rfl))))
      exact ⟨⟨fun member inside => (each member inside).1, fun shape same => (inShape shape same).1⟩,
        own, fun member inside => (each member inside).2, fun shape same => (inShape shape same).2⟩
    · rintro ⟨⟨eachClosed, shapeClosed⟩, own, eachPlain, shapePlain⟩
      refine ⟨own, fun part first => ?_⟩
      rcases subSchema_objectMembers.mp first with ⟨member, inside, rfl⟩ | written
      · exact (ihProperties member inside).mpr ⟨eachClosed member inside, eachPlain member inside⟩
      · cases values with
        | none => cases written
        | unconstrained =>
          obtain rfl := Option.some.inj written
          exact Json.selfContained_empty
        | shaped shape =>
          obtain rfl := Option.some.inj written
          exact (ihValues shape rfl).mpr ⟨shapeClosed shape rfl, shapePlain shape rfl⟩
  | @array items annotations _ apart ih =>
    rw [toJson_array, apart.selfContained_write own_arrayMembers, plain_array, references_array_eq_nil]
    constructor
    · rintro ⟨own, parts⟩
      have inItem (item) (same : items = some item) :=
        (ih item same).mp (parts _ (subSchema_arrayMembers.mpr ⟨item, same, rfl⟩))
      exact ⟨fun item same => (inItem item same).1, own, fun item same => (inItem item same).2⟩
    · rintro ⟨closed, own, plain⟩
      refine ⟨own, fun part first => ?_⟩
      obtain ⟨item, same, rfl⟩ := subSchema_arrayMembers.mp first
      exact (ih item same).mpr ⟨closed item same, plain item same⟩
  | @scalar kind annotations apart =>
    rw [toJson_scalar, apart.selfContained_write own_scalarMembers, plain_scalar]
    simp [references, not_subSchema_scalarMembers]
  | @reference name =>
    have referring : ¬ (reference name).toJson.SelfContained := fun contained => by
      have found := contained _ .here
      simp [toJson, Json.get?, Table.lookup] at found
    simp [references, referring]

end Rendered

end SchemaNode

namespace SchemaTree

variable {tree : SchemaTree} {stack : List String}

/-- Expansion adds no annotations: those of an expanded node are from the node or from a component. -/
theorem plain_of_expandAfresh {node expanded : SchemaNode} {cycles : List String}
    (components : ∀ component ∈ tree.components, component.2.Plain) (plain : node.Plain)
    (done : tree.expandAfresh stack node = .ok (expanded, cycles)) : expanded.Plain := by
  induction stack, node using expansion_induction tree generalizing expanded cycles with
  | object stack properties values facets inProperties inValues =>
    obtain ⟨own, eachPlain, shapePlain⟩ := SchemaNode.plain_object.mp plain
    obtain ⟨members, shapes, rfl, derived, _, inShape⟩ := expandAfresh_object done
    refine SchemaNode.plain_object.mpr ⟨own, fun member inside => ?_, fun result same => ?_⟩
    · obtain ⟨node, among, cuts, _, inner⟩ := derived.origin inside
      exact inProperties _ among (eachPlain _ among) inner
    · subst same
      obtain ⟨shape, cuts, rfl, inner⟩ := Expands.shape_origin inShape
      exact inValues _ rfl (shapePlain _ rfl) inner
  | array stack items annotations inItems =>
    obtain ⟨own, itemPlain⟩ := SchemaNode.plain_array.mp plain
    obtain ⟨results, rfl, inItem⟩ := expandAfresh_array done
    refine SchemaNode.plain_array.mpr ⟨own, fun result same => ?_⟩
    subst same
    cases inItem with
    | some inner => exact inItems _ rfl (itemPlain _ rfl) inner
  | scalar stack kind annotations =>
    rw [expandAfresh_scalar] at done
    obtain ⟨rfl, rfl⟩ := Prod.mk.inj (Except.ok.inj done)
    exact plain
  | reference stack name inTarget =>
    obtain ⟨target, found, ⟨_, rfl, _⟩ | ⟨closed, done⟩⟩ := expandAfresh_reference done
    · exact SchemaNode.plain_openMap
    · exact inTarget target found closed (components _ (Table.mem_of_lookup found)) done

/-- Nor does the structural form, which only leaves out the map shapes that admit any value. -/
theorem plain_of_toStructural {node : SchemaNode} {form : StructuralNode} (tidy : node.Tidy) (plain : node.Plain)
    (done : node.toStructural = .ok form) : form.toNode.Plain := by
  induction tidy generalizing form with
  | @object properties values facets _ _ _ _ ihProperties ihValues =>
    obtain ⟨own, eachPlain, shapePlain⟩ := SchemaNode.plain_object.mp plain
    obtain ⟨forms, each, shapes⟩ := SchemaNode.toStructural_object done
    have inForms : ∀ member ∈ StructuralNode.toNodeEach forms, member.2.Plain :=
      SchemaNode.toNodeEach_origin each SchemaNode.Plain
        fun member inside form formed => ihProperties member inside (eachPlain member inside) formed
    obtain ⟨_, rfl⟩ | ⟨_, rfl⟩ | ⟨shape, inShape, rfl, _, formed, rfl⟩ := shapes
    · exact SchemaNode.plain_object.mpr ⟨own, inForms, nofun⟩
    · exact SchemaNode.plain_object.mpr ⟨own, inForms, nofun⟩
    · refine SchemaNode.plain_object.mpr ⟨own, inForms, fun shape same => ?_⟩
      obtain rfl := MapValues.shaped.inj same
      exact ihValues _ rfl (shapePlain _ rfl) formed
  | @array items annotations _ _ ih =>
    obtain ⟨own, itemPlain⟩ := SchemaNode.plain_array.mp plain
    obtain ⟨results, rfl, inItems⟩ := SchemaNode.toStructural_array done
    cases inItems with
    | none => exact plain
    | some formed =>
      refine SchemaNode.plain_array.mpr ⟨own, fun item same => ?_⟩
      obtain rfl := Option.some.inj same
      exact ih _ rfl (itemPlain _ rfl) formed
  | scalar =>
    obtain rfl := Except.ok.inj done
    exact plain
  | reference => cases done

theorem plain_of_synthesize {kind version : String} {synthesized : Synthesized} (tidy : tree.Tidy)
    (components : ∀ component ∈ tree.components, component.2.Plain)
    (built : tree.synthesize kind version = .ok synthesized) :
    ∀ property ∈ synthesized.schema.properties, property.2.toNode.Plain := by
  obtain ⟨flat, properties, values, facets, flattens, formed, rfl⟩ := synthesize_eq_ok built
  obtain ⟨node, found, expands⟩ := flatten_eq_ok flattens
  have among := Table.mem_of_lookup found
  have plain := plain_of_toStructural (tidy_of_expandAfresh tidy.tidy (tidy.tidy _ among) expands)
    (plain_of_expandAfresh components (components _ among) expands) formed
  obtain ⟨shape, same⟩ := StructuralNode.toNode_object
  rw [same] at plain
  intro property inside
  exact (SchemaNode.plain_object.mp plain).2.1 _ (StructuralNode.mem_toNodeEach (List.mem_filter.mp inside).1)

end SchemaTree

namespace StructuralSchema

theorem get?_toJson_eq_none (schema : StructuralSchema) {keyword : String} (among : keyword ∈ Json.schemaKeywords) :
    schema.toJson.get? keyword = none := by
  simp only [Json.schemaKeywords, List.mem_cons, List.not_mem_nil, or_false] at among
  rw [toJson, Json.get?, Table.lookup_eq_none]
  cases Table.contains schema.properties specProperty <;> cases schema.facets.preserve <;>
    obtain rfl | rfl | rfl | rfl | rfl | rfl := among <;> simp [Table.keys, preserveKey]

theorem selfContained_toJson (schema : StructuralSchema) :
    schema.toJson.SelfContained ↔ ∀ property ∈ schema.properties, property.2.toJson.SelfContained := by
  obtain ⟨members, same, noReference, _⟩ := schema.lookup_toJson
  have properties : schema.toJson.get? "properties" = some (.object (StructuralNode.toJsonEach schema.properties)) :=
    schema.get?_properties
  have noReference : schema.toJson.get? "$ref" = none := by
    rw [same]
    exact noReference
  rw [Json.selfContained_iff, noReference]
  constructor
  · rintro ⟨_, parts⟩ property inside
    have first := Json.SubSchema.property properties (StructuralNode.mem_toJsonEach_iff.mpr ⟨property, inside, rfl⟩)
    exact parts _ first
  · intro each
    refine ⟨rfl, fun part first => ?_⟩
    cases first with
    | property found inside =>
      obtain rfl := Json.object.inj (Option.some.inj (properties.symm.trans found))
      obtain ⟨property, among, rfl⟩ := StructuralNode.mem_toJsonEach_iff.mp inside
      exact each property among
    | value _ among found =>
      rw [schema.get?_toJson_eq_none among] at found
      cases found
    | item _ among found _ =>
      rw [schema.get?_toJson_eq_none among] at found
      cases found

end StructuralSchema

namespace SchemaTree

/-- A synthesized document refers to nothing just if none of the annotations at or below its properties does.
In particular it stands on its own whenever no component of the tree has a reference among the keywords that
are kept unread. -/
theorem selfContained_synthesize_iff {document : Json} (wellFormed : document.WellFormed) {tree : SchemaTree}
    (reads : read document = .ok tree) {kind version : String} {synthesized : Synthesized}
    (built : tree.synthesize kind version = .ok synthesized) :
    (synthesized.schema.toJson.SelfContained ↔
      ∀ property ∈ synthesized.schema.properties, property.2.toNode.Plain) ∧
    ((∀ component ∈ tree.components, component.2.Plain) → synthesized.schema.toJson.SelfContained) := by
  have tidy := tidy_of_read wellFormed reads
  obtain ⟨standalone, _⟩ := standalone_of_synthesize tidy.tidy built
  have exactly : synthesized.schema.toJson.SelfContained ↔
      ∀ property ∈ synthesized.schema.properties, property.2.toNode.Plain := by
    rw [StructuralSchema.selfContained_toJson]
    refine forall₂_congr fun property inside => ?_
    rw [← property.2.toJson_toNode, SchemaNode.selfContained_toJson (standalone.tidy property inside),
      property.2.references_toNode]
    simp
  exact ⟨exactly, fun components => exactly.mpr (plain_of_synthesize tidy components built)⟩

/-- A reference in a place that is read, and one among keywords that are not. -/
def garage : Json :=
  .object [("components", .object [("schemas", .object [
    ("Garage", .object [
      ("properties", .object [
        ("spec", .object [
          ("properties", .object [
            ("keeper", .object [("$ref", .string "#/components/schemas/Person")]),
            ("owner", .object [("allOf", .array [.object [("$ref", .string "#/components/schemas/Person")]])])]),
          ("type", .string "object")])]),
      ("type", .string "object")]),
    ("Person", .object [
      ("properties", .object [("name", .object [("type", .string "string")])]), ("type", .string "object")])])])]

def garageTree : SchemaTree :=
  ⟨[("Garage", .object
      [("spec", .object
        [("keeper", .reference "Person"),
          ("owner", .scalar none
            ⟨none, false, [("allOf", .array [.object [("$ref", .string "#/components/schemas/Person")]])]⟩)]
        .none ⟨[], false, .empty⟩)]
      .none ⟨[], false, .empty⟩),
    ("Person", .object [("name", .scalar (some .string) .empty)] .none ⟨[], false, .empty⟩)]⟩

def garageSynthesized : Synthesized where
  root := "Garage"
  schema := {
    properties := [
      ("spec", .object
        [("keeper", .object [("name", .scalar (some .string) .empty)] none ⟨[], false, .empty⟩),
          ("owner", .scalar none
            ⟨none, false, [("allOf", .array [.object [("$ref", .string "#/components/schemas/Person")]])]⟩)]
        none ⟨[], false, .empty⟩)]
    values := none
    facets := ⟨[], false, .empty⟩ }
  subresources := []
  openMapFallbacks := []

def garageDocument : Json :=
  .object [
    ("properties", .object [
      ("spec", .object [
        ("properties", .object [
          ("keeper", .object [
            ("properties", .object [("name", .object [("type", .string "string")])]), ("type", .string "object")]),
          ("owner", .object [("allOf", .array [.object [("$ref", .string "#/components/schemas/Person")]])])]),
        ("type", .string "object")])]),
    ("required", .array [.string "spec"]),
    ("type", .string "object")]

theorem wellFormed_garage : garage.WellFormed := by
  simp only [garage, Json.WellFormed, Json.WellFormedMembers, Json.WellFormedItems, Table.Ascending, Table.keys]
  decide

theorem read_garage : read garage = .ok garageTree := by rfl

theorem synthesize_garage : garageTree.synthesize "Garage" "v1" = .ok garageSynthesized := by cbv

theorem selfContained_synthesize_iff_garage :
    garage.WellFormed ∧ read garage = .ok garageTree ∧
    garageTree.synthesize "Garage" "v1" = .ok garageSynthesized ∧
    ((garageSynthesized.schema.toJson.SelfContained ↔
      ∀ property ∈ garageSynthesized.schema.properties, property.2.toNode.Plain) ∧
    ((∀ component ∈ garageTree.components, component.2.Plain) → garageSynthesized.schema.toJson.SelfContained)) :=
  ⟨wellFormed_garage, read_garage, synthesize_garage,
    selfContained_synthesize_iff wellFormed_garage read_garage synthesize_garage⟩

/-- The reference that is read is followed, and the other one is still there. -/
theorem garage_refers :
    garage.WellFormed ∧ read garage = .ok garageTree ∧
    garageTree.synthesize "Garage" "v1" = .ok garageSynthesized ∧ ¬ garageSynthesized.schema.toJson.SelfContained := by
  refine ⟨wellFormed_garage, read_garage, synthesize_garage, fun contained => ?_⟩
  have written : garageSynthesized.schema.toJson = garageDocument := by rfl
  rw [written] at contained
  have kept : garageDocument.SchemaWithin (.object [("$ref", .string "#/components/schemas/Person")]) :=
    .deeper (.property rfl (List.mem_cons_self ..)) <|
      .deeper (.property rfl (List.mem_cons_of_mem _ (List.mem_cons_self ..))) <|
        .deeper (.item "allOf" (by decide) rfl (List.mem_cons_self ..)) .here
  cases contained _ kept

end SchemaTree

end ResourceKinds
