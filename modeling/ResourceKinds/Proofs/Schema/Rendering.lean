import ResourceKinds.Schema.Tree
import ResourceKinds.Proofs.Schema.Reading

namespace ResourceKinds

namespace SchemaNode

section Rendered

variable {properties : List (String × SchemaNode)} {values : MapValues SchemaNode} {facets : ObjectFacets}
  {items : Option SchemaNode} {annotations : Annotations} {kind : Option ScalarKind}

def valuesJson? : MapValues SchemaNode → Option Json
  | .none => none
  | .unconstrained => some (.object [])
  | .shaped node => some node.toJson

/-- The members of a rendered object, the annotations apart. -/
def objectMembers (properties : List (String × SchemaNode)) (values : MapValues SchemaNode) (facets : ObjectFacets) :
    Fields Json :=
  let typed : Fields Json := [("type", .string "object")]
  (((typed.insertSome "properties" (if properties.isEmpty then none else some (.object (toJsonEach properties)))
    ).insertSome "required" (if facets.required.isEmpty then none else some (Json.strings facets.required))
    ).insertSome "additionalProperties" (valuesJson? values)
    ).insertSome preserveKey (if facets.preserve then some (.bool true) else none)

def arrayMembers (items : Option SchemaNode) : Fields Json :=
  Table.insertSome [("type", .string "array")] "items" (items.map toJson)

def scalarMembers (kind : Option ScalarKind) : Fields Json :=
  Table.insertSome [] "type" (kind.map fun kind => .string kind.name)

theorem toJson_object : (object properties values facets).toJson =
    .object (facets.annotations.write (objectMembers properties values facets)) := by
  cases values <;>
    simp only [toJson, objectMembers, valuesJson?, Table.insertSome_when, Table.insertSome_unless] <;> rfl

theorem toJson_array : (array items annotations).toJson = .object (annotations.write (arrayMembers items)) := by
  cases items <;> rfl

theorem toJson_scalar : (scalar kind annotations).toJson = .object (annotations.write (scalarMembers kind)) := by
  cases kind <;> rfl

theorem own_objectMembers : Annotations.Own .object (objectMembers properties values facets) := by
  have ascending : Table.Ascending [("type", Json.string "object")] := by simp [Table.Ascending, Table.keys]
  refine ⟨?_, fun key found => Decidable.byContradiction fun outside => found ?_⟩
  · exact Table.ascending_insertSome (Table.ascending_insertSome (Table.ascending_insertSome
      (Table.ascending_insertSome ascending _ _) _ _) _ _) _ _
  · simp only [NodeKind.parts, List.mem_cons, List.not_mem_nil, or_false, not_or] at outside
    simp [objectMembers, Table.lookup_insertSome, Table.lookup, outside, Ne.symm outside.1]

theorem own_arrayMembers : Annotations.Own .array (arrayMembers items) := by
  have ascending : Table.Ascending [("type", Json.string "array")] := by simp [Table.Ascending, Table.keys]
  refine ⟨Table.ascending_insertSome ascending _ _, fun key found => Decidable.byContradiction fun outside => found ?_⟩
  simp only [NodeKind.parts, List.mem_cons, List.not_mem_nil, or_false, not_or] at outside
  simp [arrayMembers, Table.lookup_insertSome, Table.lookup, outside, Ne.symm outside.1]

theorem lookup_scalarMembers (kind : Option ScalarKind) (key : String) : (scalarMembers kind).lookup key =
    if key = "type" then kind.map fun kind => .string kind.name else none := by
  simp [scalarMembers, Table.lookup_insertSome, Table.lookup]

theorem own_scalarMembers : Annotations.Own (.scalar kind) (scalarMembers kind) := by
  refine ⟨Table.ascending_insertSome (by simp [Table.Ascending, Table.keys]) _ _, fun key found => ?_⟩
  rw [lookup_scalarMembers] at found
  split at found
  · rename_i same
    simp [NodeKind.parts, same]
  · exact absurd rfl found

theorem lookup_objectMembers (properties : List (String × SchemaNode)) (values : MapValues SchemaNode)
    (facets : ObjectFacets) :
    let members := objectMembers properties values facets
    members.lookup "type" = some (.string "object") ∧
      members.lookup "properties" = (if properties.isEmpty then none else some (.object (toJsonEach properties))) ∧
      members.lookup "required" = (if facets.required.isEmpty then none else some (Json.strings facets.required)) ∧
      members.lookup "additionalProperties" = valuesJson? values ∧
      members.lookup preserveKey = (if facets.preserve then some (.bool true) else none) := by
  refine ⟨?_, ?_, ?_, ?_, ?_⟩ <;> simp [objectMembers, Table.lookup_insertSome, Table.lookup, preserveKey]

theorem lookup_arrayMembers (items : Option SchemaNode) : (arrayMembers items).lookup "type" = some (.string "array") ∧
    (arrayMembers items).lookup "items" = items.map toJson := by
  constructor <;> simp [arrayMembers, Table.lookup_insertSome, Table.lookup]

/-- A rendered node is found to be of the kind that it is. -/
theorem ofMembers_object (apart : facets.annotations.Apart .object) :
    NodeKind.ofMembers (facets.annotations.write (objectMembers properties values facets)) = .ok .object := by
  unfold NodeKind.ofMembers
  rw [apart.lookup_type, (lookup_objectMembers properties values facets).1]
  rfl

theorem ofMembers_array (apart : annotations.Apart .array) :
    NodeKind.ofMembers (annotations.write (arrayMembers items)) = .ok .array := by
  unfold NodeKind.ofMembers
  rw [apart.lookup_type, (lookup_arrayMembers items).1]
  rfl

theorem ofMembers_scalar (apart : annotations.Apart (.scalar kind)) :
    NodeKind.ofMembers (annotations.write (scalarMembers kind)) = .ok (.scalar kind) := by
  unfold NodeKind.ofMembers
  rw [apart.lookup_type, lookup_scalarMembers, if_pos rfl]
  cases kind with
  | some kind => cases kind <;> rfl
  | none =>
    have shapeless (key : String) (inside : key ∈ ["properties", "additionalProperties", preserveKey, "items"])
        (notText : key ≠ "description") (notMark : key ≠ "nullable") (notType : key ≠ "type") :
        (annotations.write (scalarMembers none)).contains key = false := by
      rw [Table.contains, apart.lookup_write (.shape inside) notText notMark, lookup_scalarMembers, if_neg notType]
      rfl
    have noProperties := shapeless "properties" (by simp) (by decide) (by decide) (by decide)
    have noValues := shapeless "additionalProperties" (by simp) (by decide) (by decide) (by decide)
    have noMark := shapeless preserveKey (by simp) (by decide) (by decide) (by decide)
    have noItems := shapeless "items" (by simp) (by decide) (by decide) (by decide)
    simp only [Option.map_none, noProperties, noValues, noMark, noItems, Bool.or_self, Bool.false_eq_true, if_false]

end Rendered

/-- Every property is read back when its node is. -/
theorem readEach_toJsonEach {properties : List (String × SchemaNode)}
    (each : ∀ member ∈ properties, ∀ path, readAt path member.2.toJson = .ok member.2) (under : String) :
    readEach under (toJsonEach properties) = .ok properties := by
  induction properties with
  | nil => rfl
  | cons head rest ih =>
    obtain ⟨name, node⟩ := head
    have first : readAt (under ++ name) node.toJson = .ok node := each (name, node) (List.mem_cons_self ..) _
    have later := ih fun member inside => each member (List.mem_cons_of_mem _ inside)
    simp only [toJsonEach, readEach, first, later]
    rfl

theorem mapM_asString?_map_string (texts : List String) : (texts.map Json.string).mapM Json.asString? = some texts := by
  induction texts with
  | nil => rfl
  | cons text rest ih => simp [List.mapM_cons, Json.asString?, ih]

theorem componentName_componentsPath (name : String) : componentName (componentsPath ++ name) = name := by
  have dropped : Text.dropStart? componentsPath (componentsPath ++ name) = some name := by
    have begins : componentsPath.toList.isPrefixOf (componentsPath ++ name).toList = true := by
      rw [List.isPrefixOf_iff_prefix, String.toList_append]
      exact List.prefix_append _ _
    rw [Text.dropStart?, if_pos begins, String.toList_append, ← String.length_toList, List.drop_left,
      String.ofList_toList]
  simp [componentName, componentPaths, dropped]

/-- The document of a node that not every value fits has a type or is a reference. -/
theorem isUnconstrained_toJson {node : SchemaNode} (tidy : node.Tidy) (typed : node.isUntyped = false) :
    ∃ members, node.toJson = .object members ∧ isUnconstrained members = false := by
  have constrained {members : Fields Json} {type : Json} (found : members.lookup "type" = some type) :
      isUnconstrained members = false := by
    simp [isUnconstrained, Table.contains, found]
  cases tidy with
  | @object properties values facets _ _ _ apart =>
    exact ⟨_, toJson_object, constrained (apart.lookup_type.trans (lookup_objectMembers properties values facets).1)⟩
  | @array items annotations _ apart =>
    exact ⟨_, toJson_array, constrained (apart.lookup_type.trans (lookup_arrayMembers items).1)⟩
  | @scalar kind annotations apart =>
    cases kind with
    | none => cases typed
    | some kind => exact ⟨_, toJson_scalar, constrained (apart.lookup_type.trans (lookup_scalarMembers _ _))⟩
  | @reference name =>
    refine ⟨[("$ref", .string (componentsPath ++ name))], by simp only [toJson], ?_⟩
    simp [isUnconstrained, Table.contains, Table.lookup]

section ReadBack

variable {path : String} {members : Fields Json}

theorem readProperties_rendered {properties : List (String × SchemaNode)}
    (each : ∀ member ∈ properties, ∀ path, readAt path member.2.toJson = .ok member.2)
    (found : members.lookup "properties" =
      if properties.isEmpty then none else some (.object (toJsonEach properties))) :
    readProperties path members = .ok properties := by
  rw [readProperties_eq, found]
  cases properties with
  | nil => rfl
  | cons first rest => exact readEach_toJsonEach each _

theorem readRequired_rendered {required : List String}
    (found : members.lookup "required" = if required.isEmpty then none else some (Json.strings required)) :
    readRequired members = .ok required := by
  unfold readRequired
  rw [found]
  cases required with
  | nil => rfl
  | cons first rest =>
    simp only [List.isEmpty_cons, Bool.false_eq_true, if_false, Json.strings, mapM_asString?_map_string]

theorem readValues_rendered {values : MapValues SchemaNode} (tidy : ∀ shape, values = .shaped shape → shape.Tidy)
    (typed : ∀ shape, values = .shaped shape → shape.isUntyped = false)
    (each : ∀ shape, values = .shaped shape → ∀ path, readAt path shape.toJson = .ok shape)
    (found : members.lookup "additionalProperties" = valuesJson? values) :
    readValues path members = .ok values := by
  rw [readValues_eq, found]
  cases values with
  | none => rfl
  | unconstrained => rfl
  | shaped shape =>
    obtain ⟨inside, same, constrained⟩ := isUnconstrained_toJson (tidy shape rfl) (typed shape rfl)
    have read := each shape rfl (path ++ "/additionalProperties")
    rw [same] at read
    simp only [valuesJson?, same, constrained, Bool.false_eq_true, if_false, read]
    rfl

theorem readItems_rendered {items : Option SchemaNode}
    (each : ∀ item, items = some item → ∀ path, readAt path item.toJson = .ok item)
    (found : members.lookup "items" = items.map toJson) : readItems path members = .ok items := by
  rw [readItems_eq, found]
  cases items with
  | none => rfl
  | some item =>
    simp only [Option.map_some, each item rfl]
    rfl

end ReadBack

/-- What a tidy and definite node is rendered to is read as the same node: annotations are never written over a part. -/
theorem readAt_toJson {node : SchemaNode} (tidy : node.Tidy) (definite : node.Definite) (path : String) :
    readAt path node.toJson = .ok node := by
  induction tidy generalizing path with
  | @reference name =>
    simp only [toJson]
    rw [readAt_reference rfl, componentName_componentsPath]
  | @scalar kind annotations apart =>
    rw [toJson_scalar, readAt_of_kind (apart.lookup_reference own_scalarMembers) (ofMembers_scalar apart)]
    simp only [apart.ofMembers_write own_scalarMembers]
    rfl
  | @array items annotations _ apart ih =>
    cases definite with
    | array inItems =>
      have readItems : readItems path (annotations.write (arrayMembers items)) = .ok items :=
        readItems_rendered (fun item same => ih item same (inItems item same))
          ((apart.lookup_part (by simp [NodeKind.parts])).trans (lookup_arrayMembers items).2)
      rw [toJson_array, readAt_of_kind (apart.lookup_reference own_arrayMembers) (ofMembers_array apart)]
      simp only [apart.ofMembers_write own_arrayMembers, readItems]
      rfl
  | @object properties values facets _ _ tidy apart ihProperties ihValues =>
    cases definite with
    | object inProperties inValues typed =>
      obtain ⟨_, inMembers, required, shape, mark⟩ := lookup_objectMembers properties values facets
      have readProperties : readProperties path (facets.annotations.write (objectMembers properties values facets)) =
          .ok properties :=
        readProperties_rendered (fun member inside => ihProperties member inside (inProperties member inside))
          ((apart.lookup_part (by simp [NodeKind.parts])).trans inMembers)
      have readRequired : readRequired (facets.annotations.write (objectMembers properties values facets)) =
          .ok facets.required :=
        readRequired_rendered ((apart.lookup_part (by simp [NodeKind.parts])).trans required)
      have readValues : readValues path (facets.annotations.write (objectMembers properties values facets)) =
          .ok values :=
        readValues_rendered tidy typed (fun shape same => ihValues shape same (inValues shape same))
          ((apart.lookup_part (by simp [NodeKind.parts])).trans shape)
      have readMark : readPreserve (facets.annotations.write (objectMembers properties values facets)) =
          facets.preserve := by
        rw [readPreserve, apart.lookup_part (by simp [NodeKind.parts]), mark]
        cases facets.preserve <;> rfl
      rw [toJson_object, readAt_of_kind (apart.lookup_reference own_objectMembers) (ofMembers_object apart)]
      simp only [apart.ofMembers_write own_objectMembers, readProperties, readRequired, readValues, readMark]
      rfl

theorem toJsonEach_eq_map (properties : List (String × SchemaNode)) :
    toJsonEach properties = properties.map fun member => (member.1, member.2.toJson) := by
  induction properties with
  | nil => rfl
  | cons head rest ih => exact congrArg ((head.1, head.2.toJson) :: ·) ih

theorem keys_toJsonEach (properties : List (String × SchemaNode)) :
    Table.keys (toJsonEach properties) = Table.keys properties := by
  rw [toJsonEach_eq_map, Table.keys_map]

theorem wellFormed_toJsonEach {properties : List (String × SchemaNode)} (ascending : Table.Ascending properties)
    (each : ∀ member ∈ properties, member.2.toJson.WellFormed) : (Json.object (toJsonEach properties)).WellFormed := by
  refine ⟨?_, Json.wellFormedMembers_iff.mpr fun member inside => ?_⟩
  · rw [Table.Ascending, keys_toJsonEach]
    exact ascending
  · rw [toJsonEach_eq_map] at inside
    obtain ⟨property, among, rfl⟩ := List.mem_map.mp inside
    exact each property among

theorem wellFormed_strings (texts : List String) : (Json.strings texts).WellFormed := by
  induction texts with
  | nil => trivial
  | cons text rest ih => exact ⟨trivial, ih⟩

theorem wellFormed_objectMembers {properties : List (String × SchemaNode)} {values : MapValues SchemaNode}
    {facets : ObjectFacets} (ascending : Table.Ascending properties)
    (inProperties : ∀ member ∈ properties, member.2.toJson.WellFormed)
    (inValues : ∀ shape, values = .shaped shape → shape.toJson.WellFormed) :
    ∀ member ∈ objectMembers properties values facets, member.2.WellFormed := by
  unfold objectMembers
  refine Table.wellFormed_insertSome (Table.wellFormed_insertSome (Table.wellFormed_insertSome
    (Table.wellFormed_insertSome ?_ ?_) ?_) ?_) ?_
  · simp [Json.WellFormed]
  · intro document written
    split at written
    · cases written
    · obtain rfl := Option.some.inj written
      exact wellFormed_toJsonEach ascending inProperties
  · intro document written
    split at written
    · cases written
    · obtain rfl := Option.some.inj written
      exact wellFormed_strings _
  · intro document written
    cases values with
    | none => cases written
    | unconstrained =>
      obtain rfl := Option.some.inj written
      exact ⟨by simp [Table.Ascending, Table.keys], trivial⟩
    | shaped shape =>
      obtain rfl := Option.some.inj written
      exact inValues shape rfl
  · intro document written
    split at written
    · obtain rfl := Option.some.inj written
      trivial
    · cases written

/-- A tidy node is rendered to a value with ascending members throughout. -/
theorem Tidy.wellFormed_toJson {node : SchemaNode} (tidy : node.Tidy) : node.toJson.WellFormed := by
  have whole {annotations : Annotations} {kind : NodeKind} {members : Fields Json} (apart : annotations.Apart kind)
      (own : Annotations.Own kind members) (each : ∀ member ∈ members, member.2.WellFormed) :
      (Json.object (annotations.write members)).WellFormed :=
    ⟨annotations.ascending_write own.ascending,
      Json.wellFormedMembers_iff.mpr (Annotations.wellFormed_write apart.wellFormed each)⟩
  induction tidy with
  | @reference name =>
    simp only [toJson]
    exact ⟨by simp [Table.Ascending, Table.keys], trivial, trivial⟩
  | @scalar kind annotations apart =>
    rw [toJson_scalar]
    refine whole apart own_scalarMembers (Table.wellFormed_insertSome ?_ fun document written => ?_)
    · simp
    · obtain ⟨type, _, rfl⟩ := Option.map_eq_some_iff.mp written
      trivial
  | @array items annotations _ apart ih =>
    rw [toJson_array]
    refine whole apart own_arrayMembers (Table.wellFormed_insertSome ?_ fun document written => ?_)
    · simp [Json.WellFormed]
    · obtain ⟨item, present, rfl⟩ := Option.map_eq_some_iff.mp written
      exact ih item present
  | @object properties values facets ascending _ _ apart ihProperties ihValues =>
    rw [toJson_object]
    exact whole apart own_objectMembers (wellFormed_objectMembers ascending ihProperties ihValues)

end SchemaNode

namespace SchemaTree

/-- A tree as it is read from a document. -/
structure Tidy (tree : SchemaTree) : Prop where
  ascending : Table.Ascending tree.components
  tidy : ∀ component ∈ tree.components, component.2.Tidy
  definite : ∀ component ∈ tree.components, component.2.Definite

theorem wellFormed_of_get? {document part : Json} {name : String} (wellFormed : document.WellFormed)
    (found : document.get? name = some part) : part.WellFormed := by
  cases document with
  | object members => exact Json.wellFormedMembers_iff.mp wellFormed.2 _ (Table.mem_of_lookup found)
  | _ => cases found

theorem tidy_of_read {document : Json} {tree : SchemaTree} (wellFormed : document.WellFormed)
    (reads : read document = .ok tree) : tree.Tidy := by
  unfold read at reads
  split at reads
  · rename_i schemas found
    obtain ⟨components, inComponents, found⟩ := Option.bind_eq_some_iff.mp found
    have wellFormed := wellFormed_of_get? (wellFormed_of_get? wellFormed inComponents) found
    obtain ⟨nodes, each, rfl⟩ := map_eq_ok.mp reads
    have derived := SchemaNode.derived_of_readEach each
    have both (component : String × SchemaNode) (inside : component ∈ nodes) :
        component.2.Tidy ∧ component.2.Definite := by
      obtain ⟨schema, among, read⟩ := derived.origin inside
      exact SchemaNode.tidy_of_readAt (Json.wellFormedMembers_iff.mp wellFormed.2 _ among) read
    exact ⟨derived.ascending wellFormed.1, fun component inside => (both component inside).1,
      fun component inside => (both component inside).2⟩
  · cases reads
  · split at reads
    · obtain rfl := Except.ok.inj reads
      exact ⟨by simp [empty, Table.Ascending, Table.keys], by simp [empty], by simp [empty]⟩
    · cases reads

theorem Tidy.read_toJson {tree : SchemaTree} (tidy : tree.Tidy) : read tree.toJson = .ok tree := by
  have each := SchemaNode.readEach_toJsonEach (fun component inside path =>
    SchemaNode.readAt_toJson (tidy.tidy component inside) (tidy.definite component inside) path) componentsPath
  have found : (tree.toJson.get? "components").bind (·.get? "schemas") =
      some (.object (SchemaNode.toJsonEach tree.components)) := rfl
  unfold read
  rw [found]
  simp only [each]
  rfl

theorem Tidy.wellFormed_toJson {tree : SchemaTree} (tidy : tree.Tidy) : tree.toJson.WellFormed := by
  have components := SchemaNode.wellFormed_toJsonEach tidy.ascending fun component inside =>
    (tidy.tidy component inside).wellFormed_toJson
  exact ⟨by simp [Table.Ascending, Table.keys], ⟨by simp [Table.Ascending, Table.keys], components, trivial⟩, trivial⟩

/-- A tree that was read is rendered to a document from which the same tree is read, so that rendering
and reading any number of times more changes nothing. -/
theorem read_toJson_of_read {document : Json} (wellFormed : document.WellFormed) {tree : SchemaTree}
    (reads : read document = .ok tree) :
    tree.toJson.WellFormed ∧ read tree.toJson = .ok tree ∧
      (read tree.toJson).map toJson = .ok tree.toJson := by
  have tidy := tidy_of_read wellFormed reads
  refine ⟨tidy.wellFormed_toJson, tidy.read_toJson, ?_⟩
  rw [tidy.read_toJson]
  rfl

/-- Schemas as they are found outside: no type where a shape tells it, references in an old place, keywords
without a meaning here and others of the wrong type. -/
def shelf : Json :=
  .object [("components", .object [("schemas", .object [
    ("Book", .object [("additionalProperties", .object [("title", .string "any")]), ("items", .null),
      ("nullable", .string "yes"), ("type", .string "object")]),
    ("Shelf", .object [
      ("additionalProperties", .object [
        ("format", .string "uri"), ("nullable", .bool true), ("type", .string "string")]),
      ("description", .bool true),
      ("properties", .object [
        ("books", .object [("items", .object [("$ref", .string "#/definitions/Book")]), ("minItems", .null)]),
        ("label", .bool true)]),
      ("required", .array [.string "label"])])])])]

def shelfTree : SchemaTree :=
  ⟨[("Book", .object [] .unconstrained ⟨[], false, ⟨none, false, [("items", .null)]⟩⟩),
    ("Shelf", .object
      [("books", .array (some (.reference "Book")) ⟨none, false, [("minItems", .null)]⟩),
        ("label", .scalar none .empty)]
      (.shaped (.scalar (some .string) ⟨none, true, [("format", .string "uri")]⟩)) ⟨["label"], false, .empty⟩)]⟩

theorem wellFormed_shelf : shelf.WellFormed := by
  simp only [shelf, Json.WellFormed, Json.WellFormedMembers, Json.WellFormedItems, Table.Ascending, Table.keys]
  decide

theorem read_shelf : read shelf = .ok shelfTree := by rfl

theorem read_toJson_of_read_shelf : shelf.WellFormed ∧ read shelf = .ok shelfTree ∧
    (shelfTree.toJson.WellFormed ∧ read shelfTree.toJson = .ok shelfTree ∧
      (read shelfTree.toJson).map toJson = .ok shelfTree.toJson) :=
  ⟨wellFormed_shelf, read_shelf, read_toJson_of_read wellFormed_shelf read_shelf⟩

end SchemaTree

end ResourceKinds
