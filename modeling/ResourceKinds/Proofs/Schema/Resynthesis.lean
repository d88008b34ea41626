import ResourceKinds.Proofs.Schema.ExpansionMemo
import ResourceKinds.Proofs.Schema.StructuralForm

namespace ResourceKinds

namespace SchemaNode

theorem tidy_openMap : openMap.Tidy :=
  .object (by simp [Table.Ascending, Table.keys]) (by simp) (by simp) (Annotations.apart_empty _)

theorem derived_of_toStructuralEach {nodes : List (String × SchemaNode)} {forms : List (String × StructuralNode)}
    (done : toStructuralEach nodes = .ok forms) :
    Table.Derived (fun _ node form => node.toStructural = .ok form) nodes forms := by
  induction nodes generalizing forms with
  | nil =>
    obtain rfl := Except.ok.inj done
    exact .nil
  | cons head rest ih =>
    obtain ⟨name, node⟩ := head
    obtain ⟨form, first, done⟩ := bind_eq_ok.mp done
    obtain ⟨others, later, done⟩ := bind_eq_ok.mp done
    obtain rfl := Except.ok.inj done
    exact .cons first (ih later)

/-- The three things that the map shape of an object can become. -/
theorem toStructural_object {properties : List (String × SchemaNode)} {values : MapValues SchemaNode}
    {facets : ObjectFacets} {form : StructuralNode} (done : (object properties values facets).toStructural = .ok form) :
    ∃ forms, toStructuralEach properties = .ok forms ∧
      (values = .none ∧ form = .object forms none facets ∨
        (values = .unconstrained ∨ ∃ shape, values = .shaped shape ∧ shape.isUntyped = true) ∧
          form = .object forms none ⟨facets.required, true, facets.annotations⟩ ∨
        ∃ shape inShape, values = .shaped shape ∧ shape.isUntyped = false ∧ shape.toStructural = .ok inShape ∧
          form = .object forms (some inShape) facets) := by
  rw [toStructural] at done
  obtain ⟨forms, each, done⟩ := bind_eq_ok.mp done
  refine ⟨forms, each, ?_⟩
  cases values with
  | none => exact .inl ⟨rfl, (Except.ok.inj done).symm⟩
  | unconstrained => exact .inr (.inl ⟨.inl rfl, (Except.ok.inj done).symm⟩)
  | shaped shape =>
    cases untyped : shape.isUntyped with
    | true =>
      simp only [untyped, if_true] at done
      exact .inr (.inl ⟨.inr ⟨shape, rfl, untyped⟩, (Except.ok.inj done).symm⟩)
    | false =>
      simp only [untyped, Bool.false_eq_true, if_false] at done
      obtain ⟨inShape, formed, done⟩ := bind_eq_ok.mp done
      exact .inr (.inr ⟨shape, inShape, rfl, untyped, formed, (Except.ok.inj done).symm⟩)

theorem toStructural_array {items : Option SchemaNode} {annotations : Annotations} {form : StructuralNode}
    (done : (array items annotations).toStructural = .ok form) : ∃ results, form = .array results annotations ∧
      Option.Rel (fun item result => item.toStructural = .ok result) items results := by
  cases items with
  | none => exact ⟨none, (Except.ok.inj done).symm, .none⟩
  | some item =>
    obtain ⟨inItem, formed, done⟩ := bind_eq_ok.mp done
    exact ⟨some inItem, (Except.ok.inj done).symm, .some formed⟩

theorem isUntyped_toNode {node : SchemaNode} {form : StructuralNode} (done : node.toStructural = .ok form) :
    form.toNode.isUntyped = node.isUntyped := by
  cases node with
  | object properties values facets =>
    obtain ⟨forms, _, ⟨_, rfl⟩ | ⟨_, rfl⟩ | ⟨shape, inShape, _, _, _, rfl⟩⟩ := toStructural_object done <;> rfl
  | array items annotations =>
    obtain ⟨results, rfl, _⟩ := toStructural_array done
    cases results <;> rfl
  | scalar kind annotations =>
    obtain rfl := Except.ok.inj done
    rfl
  | reference name => cases done

theorem toNodeEach_origin {nodes : List (String × SchemaNode)} {forms : List (String × StructuralNode)}
    (done : toStructuralEach nodes = .ok forms) (holds : SchemaNode → Prop)
    (each : ∀ member ∈ nodes, ∀ form, member.2.toStructural = .ok form → holds form.toNode) :
    ∀ member ∈ StructuralNode.toNodeEach forms, holds member.2 := by
  intro member inside
  obtain ⟨form, among, rfl⟩ := StructuralNode.mem_toNodeEach_iff.mp inside
  obtain ⟨node, origin, formed⟩ := (derived_of_toStructuralEach done).origin among
  exact each _ origin _ formed

/-- The structural form of a tidy node is tidy, and none of its map shapes admits any value. -/
theorem tidy_of_toStructural {node : SchemaNode} {form : StructuralNode} (tidy : node.Tidy)
    (done : node.toStructural = .ok form) : form.toNode.Tidy ∧ form.toNode.Definite := by
  induction tidy generalizing form with
  | @object properties values facets ascending _ _ apart ihProperties ihValues =>
    obtain ⟨forms, each, shapes⟩ := toStructural_object done
    have both : ∀ member ∈ StructuralNode.toNodeEach forms, member.2.Tidy ∧ member.2.Definite :=
      toNodeEach_origin each (fun node => node.Tidy ∧ node.Definite)
        fun member inside form formed => ihProperties member inside formed
    have sorted : Table.Ascending (StructuralNode.toNodeEach forms) := by
      rw [Table.Ascending, StructuralNode.keys_toNodeEach]
      exact (derived_of_toStructuralEach each).ascending ascending
    have shapeless (preserve : Bool) :
        (StructuralNode.object forms none ⟨facets.required, preserve, facets.annotations⟩).toNode.Tidy ∧
          (StructuralNode.object forms none ⟨facets.required, preserve, facets.annotations⟩).toNode.Definite :=
      ⟨.object sorted (fun member inside => (both member inside).1) (by simp) apart,
        .object (fun member inside => (both member inside).2) (by simp) (by simp)⟩
    obtain ⟨_, rfl⟩ | ⟨_, rfl⟩ | ⟨shape, inShape, rfl, typed, formed, rfl⟩ := shapes
    · exact shapeless facets.preserve
    · exact shapeless true
    · obtain ⟨shapeTidy, shapeDefinite⟩ := ihValues shape rfl formed
      constructor
      · refine .object sorted (fun member inside => (both member inside).1) (fun shape same => ?_) apart
        obtain rfl := MapValues.shaped.inj same
        exact shapeTidy
      · refine .object (fun member inside => (both member inside).2) (fun shape same => ?_) fun shape same => ?_
        · obtain rfl := MapValues.shaped.inj same
          exact shapeDefinite
        · obtain rfl := MapValues.shaped.inj same
          rw [isUntyped_toNode formed, typed]
  | @array items annotations _ apart ih =>
    obtain ⟨results, rfl, inItems⟩ := toStructural_array done
    cases inItems with
    | none => exact ⟨.array (by simp) apart, .array (by simp)⟩
    | some formed =>
      obtain ⟨itemTidy, itemDefinite⟩ := ih _ rfl formed
      constructor
      · refine .array (fun item same => ?_) apart
        obtain rfl := Option.some.inj same
        exact itemTidy
      · refine .array fun item same => ?_
        obtain rfl := Option.some.inj same
        exact itemDefinite
  | scalar apart =>
    obtain rfl := Except.ok.inj done
    exact ⟨.scalar apart, .scalar⟩
  | reference => cases done

/-- The structural form of a node that was read has a document that can be read, too, and what is read from it
has the same form and the same document again. -/
theorem toStructural_again {document : Json} (wellFormed : document.WellFormed) {node : SchemaNode}
    (reads : read document = .ok node) {form : StructuralNode} (formed : node.toStructural = .ok form) :
    ∃ again, read form.toJson = .ok again ∧
      ∃ second, again.toStructural = .ok second ∧ second = form ∧ second.toJson = form.toJson := by
  obtain ⟨tidy, _⟩ := tidy_of_readAt wellFormed reads
  obtain ⟨formTidy, formDefinite⟩ := tidy_of_toStructural tidy formed
  have readsAgain : read form.toJson = .ok form.toNode := by
    rw [← form.toJson_toNode]
    exact readAt_toJson formTidy formDefinite "#"
  exact ⟨form.toNode, readsAgain, form, StructuralNode.toStructural_toNode formDefinite, rfl, rfl⟩

/-- Maps of any values in several spellings, one of them inside a map of a known shape. -/
def menu : Json :=
  .object [
    ("additionalProperties", .object [("title", .string "anything else")]),
    ("properties", .object [
      ("prices", .object [
        ("additionalProperties", .object [
          ("additionalProperties", .bool true), ("properties", .object [("note", .bool true)]),
          ("required", .array [.string "note"])])]),
      ("tags", .object [("items", .object [("description", .string "any tag")]), ("x-unique", .bool true)])])]

def menuNode : SchemaNode :=
  .object
    [("prices", .object []
        (.shaped (.object [("note", .scalar none .empty)] .unconstrained ⟨["note"], false, .empty⟩))
        ⟨[], false, .empty⟩),
      ("tags", .array (some (.scalar none ⟨some "any tag", false, []⟩)) ⟨none, false, [("x-unique", .bool true)]⟩)]
    .unconstrained ⟨[], false, .empty⟩

def menuForm : StructuralNode :=
  .object
    [("prices", .object [] (some (.object [("note", .scalar none .empty)] none ⟨["note"], true, .empty⟩))
        ⟨[], false, .empty⟩),
      ("tags", .array (some (.scalar none ⟨some "any tag", false, []⟩)) ⟨none, false, [("x-unique", .bool true)]⟩)]
    none .openMap

theorem wellFormed_menu : menu.WellFormed := by
  simp only [menu, Json.WellFormed, Json.WellFormedMembers, Json.WellFormedItems, Table.Ascending, Table.keys]
  decide

theorem read_menu : read menu = .ok menuNode := by rfl

theorem toStructural_menu : menuNode.toStructural = .ok menuForm := by rfl

theorem toStructural_again_menu :
    menu.WellFormed ∧ read menu = .ok menuNode ∧ menuNode.toStructural = .ok menuForm ∧
    ∃ again, read menuForm.toJson = .ok again ∧
      ∃ second, again.toStructural = .ok second ∧ second = menuForm ∧ second.toJson = menuForm.toJson :=
  ⟨wellFormed_menu, read_menu, toStructural_menu, toStructural_again wellFormed_menu read_menu toStructural_menu⟩

end SchemaNode

namespace SchemaTree

section Expansion

variable {tree : SchemaTree} {stack : List String}

/-- Expansion keeps a node tidy: what it puts in the place of a reference is tidy, too. -/
theorem tidy_of_expandAfresh {node expanded : SchemaNode} {cycles : List String}
    (components : ∀ component ∈ tree.components, component.2.Tidy) (tidy : node.Tidy)
    (done : tree.expandAfresh stack node = .ok (expanded, cycles)) : expanded.Tidy := by
  induction stack, node using expansion_induction tree generalizing expanded cycles with
  | object stack properties values facets inProperties inValues =>
    cases tidy with
    | object ascending eachTidy shapeTidy apart =>
      obtain ⟨members, shapes, rfl, derived, _, inShape⟩ := expandAfresh_object done
      refine .object (derived.ascending ascending) (fun member inside => ?_) (fun result same => ?_) apart
      · obtain ⟨node, among, cuts, _, inner⟩ := derived.origin inside
        exact inProperties _ among (eachTidy _ among) inner
      · subst same
        obtain ⟨shape, cuts, rfl, inner⟩ := Expands.shape_origin inShape
        exact inValues _ rfl (shapeTidy _ rfl) inner
  | array stack items annotations inItems =>
    cases tidy with
    | array itemTidy apart =>
      obtain ⟨results, rfl, inItem⟩ := expandAfresh_array done
      refine .array (fun result same => ?_) apart
      subst same
      cases inItem with
      | some inner => exact inItems _ rfl (itemTidy _ rfl) inner
  | scalar stack kind annotations =>
    rw [expandAfresh_scalar] at done
    obtain ⟨rfl, rfl⟩ := Prod.mk.inj (Except.ok.inj done)
    exact tidy
  | reference stack name inTarget =>
    obtain ⟨target, found, ⟨_, rfl, _⟩ | ⟨closed, done⟩⟩ := expandAfresh_reference done
    · exact SchemaNode.tidy_openMap
    · exact inTarget target found closed (components _ (Table.mem_of_lookup found)) done

/-- What a tree flattens to is the plain expansion of one of its components. -/
theorem flatten_eq_ok {kind version : String} {flat : Flattened} (flattens : tree.flatten kind version = .ok flat) :
    ∃ node, tree.get? flat.root = some node ∧ tree.expandAfresh [flat.root] node = .ok (flat.node, flat.cycles) := by
  unfold flatten at flattens
  split at flattens
  · cases flattens
  · split at flattens
    · cases flattens
    · rename_i root _ _ node found
      obtain ⟨⟨expanded, state⟩, run, flattens⟩ := bind_eq_ok.mp flattens
      obtain rfl := Except.ok.inj flattens
      refine ⟨node, found, ?_⟩
      have follows := expand_follows (Trail.root found) ⟨[], []⟩ Kept.empty
      cases plain : tree.expandAfresh [root] node with
      | error error =>
        rw [plain] at follows
        simp only [Extends, run] at follows
        cases follows
      | ok outcome =>
        rw [plain] at follows
        obtain ⟨done, _, same⟩ := follows
        rw [run] at same
        obtain ⟨rfl, rfl⟩ := Prod.mk.inj (Except.ok.inj same)
        rfl
  · cases flattens

end Expansion

end SchemaTree

namespace StructuralSchema

/-- Of the facets of the root, its document has the mark of an open object only. It requires a specification
whenever there is one. -/
def documentFacets (schema : StructuralSchema) : ObjectFacets :=
  ⟨if Table.contains schema.properties specProperty then [specProperty] else [], schema.facets.preserve, .empty⟩

/-- The root as the document of the schema has it, without the map shape. -/
def documentRoot (schema : StructuralSchema) : StructuralNode := .object schema.properties none schema.documentFacets

/-- What synthesis makes of the properties of a root. -/
structure Standalone (schema : StructuralSchema) : Prop where
  ascending : Table.Ascending schema.properties
  tidy : ∀ member ∈ schema.properties, member.2.toNode.Tidy
  definite : ∀ member ∈ schema.properties, member.2.toNode.Definite
  noMetadata : Table.lookup schema.properties metadataProperty = none

variable {schema : StructuralSchema}

theorem lookup_toJson (schema : StructuralSchema) : ∃ members : Fields Json, schema.toJson = .object members ∧
    members.lookup "$ref" = none ∧ members.lookup "type" = some (.string "object") ∧
    members.lookup "properties" = some schema.propertiesJson ∧
    members.lookup "required" =
      (if Table.contains schema.properties specProperty then some (Json.strings [specProperty]) else none) ∧
    members.lookup "additionalProperties" = none ∧
    members.lookup preserveKey = (if schema.facets.preserve then some (.bool true) else none) ∧
    Annotations.ofMembers .object members = .empty := by
  refine ⟨_, rfl, ?_⟩
  cases Table.contains schema.properties specProperty <;> cases schema.facets.preserve <;>
    simp [Table.lookup, preserveKey, Annotations.ofMembers, Annotations.empty, NodeKind.keywords]

theorem get?_properties (schema : StructuralSchema) : schema.toJson.get? "properties" = some schema.propertiesJson := by
  obtain ⟨members, same, _, _, inMembers, _⟩ := schema.lookup_toJson
  rw [same]
  exact inMembers

/-- The document of a schema is read as the root that it has. -/
theorem Standalone.read_toJson (standalone : schema.Standalone) :
    SchemaNode.read schema.toJson = .ok schema.documentRoot.toNode := by
  obtain ⟨members, same, noReference, type, properties, required, noValues, mark, noAnnotations⟩ :=
    schema.lookup_toJson
  have each : SchemaNode.readEach "#/properties/" (StructuralNode.toJsonEach schema.properties) =
      .ok (StructuralNode.toNodeEach schema.properties) := by
    rw [← StructuralNode.toJsonEach_toNodeEach fun member _ => member.2.toJson_toNode]
    refine SchemaNode.readEach_toJsonEach (fun member inside path => ?_) _
    obtain ⟨property, among, rfl⟩ := StructuralNode.mem_toNodeEach_iff.mp inside
    exact SchemaNode.readAt_toJson (standalone.tidy _ among) (standalone.definite _ among) path
  have ofKind : NodeKind.ofMembers members = .ok .object := by
    unfold NodeKind.ofMembers
    rw [type]
    rfl
  have inProperties : SchemaNode.readProperties "#" members = .ok (StructuralNode.toNodeEach schema.properties) := by
    rw [SchemaNode.readProperties_eq, properties]
    exact each
  have inValues : SchemaNode.readValues "#" members = .ok .none := by
    rw [SchemaNode.readValues_eq, noValues]
  have marked : readPreserve members = schema.facets.preserve := by
    rw [readPreserve, mark]
    cases schema.facets.preserve <;> rfl
  rw [SchemaNode.read, same, SchemaNode.readAt_of_kind noReference ofKind]
  simp only [inProperties, inValues, marked, noAnnotations, readRequired, required, documentRoot, documentFacets]
  cases Table.contains schema.properties specProperty <;> rfl

theorem Standalone.definite_documentRoot (standalone : schema.Standalone) : schema.documentRoot.toNode.Definite := by
  refine .object (fun member inside => ?_) (by simp) (by simp)
  obtain ⟨property, among, rfl⟩ := StructuralNode.mem_toNodeEach_iff.mp inside
  exact standalone.definite _ among

end StructuralSchema

namespace SchemaTree

/-- A tree of one component. -/
def single (name : String) (node : SchemaNode) : SchemaTree := ⟨[(name, node)]⟩

theorem flatten_single (name : String) (node : StructuralNode) (kind version : String) :
    (single name node.toNode).flatten kind version = .ok ⟨name, node.toNode, []⟩ := by
  have roots : (single name node.toNode).roots = [name] := by
    simp [SchemaTree.roots, referenced, names, single, Table.keys, node.references_toNode]
  have found : (single name node.toNode).get? name = some node.toNode := by simp [get?, single, Table.lookup]
  simp only [flatten, roots, found, expand_toNode]
  rfl

section Synthesis

variable {tree : SchemaTree} {kind version : String} {synthesized : Synthesized}

/-- A synthesized schema is what becomes of the structural form of the flattened tree, which is an object. -/
theorem synthesize_eq_ok (built : tree.synthesize kind version = .ok synthesized) :
    ∃ flat properties values facets, tree.flatten kind version = .ok flat ∧
      flat.node.toStructural = .ok (.object properties values facets) ∧
      synthesized = .ofRoot flat.root flat.cycles properties values facets := by
  obtain ⟨flat, flattens, built⟩ := bind_eq_ok.mp built
  obtain ⟨form, formed, built⟩ := bind_eq_ok.mp built
  cases form with
  | object properties values facets =>
    exact ⟨flat, properties, values, facets, flattens, formed, (Except.ok.inj built).symm⟩
  | array items annotations => cases built
  | scalar kind annotations => cases built

/-- The structural form of what a tree is flattened to is tidy, and none of its map shapes admits any value. -/
theorem tidy_of_flatten (components : ∀ component ∈ tree.components, component.2.Tidy) {flat : Flattened}
    (flattens : tree.flatten kind version = .ok flat) {form : StructuralNode}
    (formed : flat.node.toStructural = .ok form) : form.toNode.Tidy ∧ form.toNode.Definite := by
  obtain ⟨node, found, expands⟩ := flatten_eq_ok flattens
  have expanded := tidy_of_expandAfresh components (components _ (Table.mem_of_lookup found)) expands
  exact SchemaNode.tidy_of_toStructural expanded formed

/-- A synthesized schema stands alone, and its subresources are its properties besides the specification. -/
theorem standalone_of_synthesize (components : ∀ component ∈ tree.components, component.2.Tidy)
    (built : tree.synthesize kind version = .ok synthesized) : synthesized.schema.Standalone ∧
      synthesized.subresources =
        (Table.keys synthesized.schema.properties).filter (· ≠ StructuralSchema.specProperty) := by
  obtain ⟨flat, properties, values, facets, flattens, formed, rfl⟩ := synthesize_eq_ok built
  obtain ⟨tidy, definite⟩ := tidy_of_flatten components flattens formed
  obtain ⟨ascending, eachTidy⟩ := StructuralNode.tidy_properties tidy
  have eachDefinite := StructuralNode.definite_properties definite
  refine ⟨⟨Table.ascending_filter _ ascending, fun member inside => ?_, fun member inside => ?_,
    Table.lookup_erase_self properties StructuralSchema.metadataProperty⟩, rfl⟩
  · exact eachTidy member (List.mem_filter.mp inside).1
  · exact eachDefinite member (List.mem_filter.mp inside).1

end Synthesis

theorem synthesize_documentRoot {schema : StructuralSchema} (standalone : schema.Standalone)
    (root kind version : String) : (single root schema.documentRoot.toNode).synthesize kind version =
      .ok (.ofRoot root [] schema.properties none schema.documentFacets) := by
  have formed := StructuralNode.toStructural_toNode standalone.definite_documentRoot
  simp only [synthesize, flatten_single, bind, Except.bind, formed]
  rfl

/-- The document of a schema that stands alone is synthesized to a schema with the same document. -/
theorem synthesize_single {schema : StructuralSchema} (standalone : schema.Standalone) (root kind version : String) :
    ∃ again, (single root schema.documentRoot.toNode).synthesize kind version = .ok again ∧ again.root = root ∧
      again.schema.toJson = schema.toJson ∧
      again.subresources = (Table.keys schema.properties).filter (· ≠ StructuralSchema.specProperty) ∧
      again.openMapFallbacks = [] := by
  have unchanged : Table.erase schema.properties StructuralSchema.metadataProperty = schema.properties :=
    Table.erase_eq_self standalone.noMetadata
  refine ⟨.ofRoot root [] schema.properties none schema.documentFacets,
    synthesize_documentRoot standalone root kind version, rfl, ?_, ?_, rfl⟩
  · simp only [Synthesized.ofRoot, unchanged, StructuralSchema.toJson, StructuralSchema.propertiesJson,
      StructuralSchema.documentFacets]
  · simp only [Synthesized.ofRoot, unchanged]

/-- Synthesis leaves alone what it has made: the document of a synthesized schema can be read, and as the
only component of a tree it is synthesized to the same document, with nothing cut off. -/
theorem synthesize_again {document : Json} (wellFormed : document.WellFormed) {tree : SchemaTree}
    (reads : read document = .ok tree) {kind version : String} {synthesized : Synthesized}
    (built : tree.synthesize kind version = .ok synthesized) :
    ∃ node, SchemaNode.read synthesized.schema.toJson = .ok node ∧
      ∃ again, (single synthesized.root node).synthesize kind version = .ok again ∧
        again.schema.toJson = synthesized.schema.toJson ∧ again.root = synthesized.root ∧
        again.subresources = synthesized.subresources ∧ again.openMapFallbacks = [] := by
  obtain ⟨standalone, subresources⟩ := standalone_of_synthesize (tidy_of_read wellFormed reads).tidy built
  obtain ⟨again, builtAgain, root, same, others, noCuts⟩ :=
    synthesize_single standalone synthesized.root kind version
  exact ⟨_, standalone.read_toJson, again, builtAgain, same, root, others.trans subresources.symm, noCuts⟩

/-- A resource with a map whose values are any by way of a reference, and with a chain that never ends. -/
def widget : Json :=
  .object [("components", .object [("schemas", .object [
    ("Any", .object [("description", .string "anything")]),
    ("Link", .object [("properties", .object [("next", .object [("$ref", .string "#/$defs/Link")])])]),
    ("Widget", .object [
      ("additionalProperties", .bool true),
      ("properties", .object [
        ("metadata", .object [("type", .string "object")]),
        ("spec", .object [
          ("properties", .object [
            ("chain", .object [("$ref", .string "#/definitions/Link")]),
            ("labels", .object [("additionalProperties", .object [("$ref", .string "#/components/schemas/Any")])])]),
          ("x-order", .bool true)]),
        ("status", .object [("format", .string "phase"), ("nullable", .bool true), ("type", .string "string")])])])])])]

def widgetTree : SchemaTree :=
  ⟨[("Any", .scalar none ⟨some "anything", false, []⟩),
    ("Link", .object [("next", .reference "Link")] .none ⟨[], false, .empty⟩),
    ("Widget", .object
      [("metadata", .object [] .none ⟨[], false, .empty⟩),
        ("spec", .object
          [("chain", .reference "Link"),
            ("labels", .object [] (.shaped (.reference "Any")) ⟨[], false, .empty⟩)]
          .none ⟨[], false, ⟨none, false, [("x-order", .bool true)]⟩⟩),
        ("status", .scalar (some .string) ⟨none, true, [("format", .string "phase")]⟩)]
      .unconstrained ⟨[], false, .empty⟩)]⟩

def widgetSynthesized : Synthesized where
  root := "Widget"
  schema := {
    properties := [
      ("spec", .object
        [("chain", .object [("next", .object [] none .openMap)] none ⟨[], false, .empty⟩),
          ("labels", .object [] none .openMap)]
        none ⟨[], false, ⟨none, false, [("x-order", .bool true)]⟩⟩),
      ("status", .scalar (some .string) ⟨none, true, [("format", .string "phase")]⟩)]
    values := none
    facets := .openMap }
  subresources := ["status"]
  openMapFallbacks := ["Link"]

theorem wellFormed_widget : widget.WellFormed := by
  simp only [widget, Json.WellFormed, Json.WellFormedMembers, Table.Ascending, Table.keys]
  decide

theorem read_widget : read widget = .ok widgetTree := by rfl

theorem synthesize_widget : widgetTree.synthesize "Widget" "v1" = .ok widgetSynthesized := by cbv

theorem synthesize_again_widget :
    widget.WellFormed ∧ read widget = .ok widgetTree ∧
    widgetTree.synthesize "Widget" "v1" = .ok widgetSynthesized ∧
    ∃ node, SchemaNode.read widgetSynthesized.schema.toJson = .ok node ∧
      ∃ again, (single widgetSynthesized.root node).synthesize "Widget" "v1" = .ok again ∧
        again.schema.toJson = widgetSynthesized.schema.toJson ∧ again.root = widgetSynthesized.root ∧
        again.subresources = widgetSynthesized.subresources ∧ again.openMapFallbacks = [] :=
  ⟨wellFormed_widget, read_widget, synthesize_widget, synthesize_again wellFormed_widget read_widget synthesize_widget⟩

end SchemaTree

end ResourceKinds
