import ResourceKinds.Proofs.Schema.Resynthesis
import ResourceKinds.Proofs.Schema.TypeMembers

namespace ResourceKinds

namespace StructuralSchema

/-- The schema that the document of a schema is read as. -/
def documentSchema (schema : StructuralSchema) : StructuralSchema :=
  ⟨schema.properties, none, schema.documentFacets⟩

theorem get?_prune_congr {first second : StructuralSchema} {name : String}
    (same : ∀ rest, first.admits (.member name :: rest) = second.admits (.member name :: rest)) (value : Json) :
    (first.prune value).get? name = (second.prune value).get? name := by
  rw [prune_eq_retain, prune_eq_retain]
  cases value with
  | object members => simp only [Json.retain, Json.get?, Json.lookup_retainMembers, same]
  | _ => rfl

variable {schema : StructuralSchema}

theorem admits_documentSchema_of_declared {name : String} {node : StructuralNode}
    (declared : Table.lookup schema.properties name = some node) (rest : Json.Path) :
    schema.documentSchema.admits (.member name :: rest) = schema.admits (.member name :: rest) := by
  simp [admits, documentSchema, StructuralNode.admitsBelow, StructuralNode.memberNode?, declared]

/-- There is a name that is neither declared nor that of a type member. -/
theorem exists_foreign (schema : StructuralSchema) :
    ∃ name, Table.lookup schema.properties name = none ∧ name ∉ typeMembers := by
  obtain ⟨name, absent⟩ := StructuralNode.exists_undeclared
    ((Table.keys schema.properties ++ typeMembers).map fun name => (name, ()))
  rw [Table.lookup_eq_none, Table.keys, List.map_map] at absent
  have outside : name ∉ Table.keys schema.properties ++ typeMembers := by simpa using absent
  rw [List.mem_append, not_or] at outside
  exact ⟨name, Table.lookup_eq_none.mpr outside.1, outside.2⟩

section Foreign

variable {name : String} (undeclared : Table.lookup schema.properties name = none) (foreign : name ∉ typeMembers)

include undeclared foreign

/-- Of a member that nothing speaks for, the document knows only whether the root is open. -/
theorem get?_prune_documentSchema (value : Json) :
    (schema.documentSchema.prune (.object [(name, value)])).get? name =
      if schema.facets.preserve then some value else none := by
  cases preserve : schema.facets.preserve <;>
    simp [prune, documentSchema, documentFacets, StructuralNode.pruneMembers, StructuralNode.memberNode?, undeclared,
      foreign, preserve, Json.get?, Table.lookup]

omit foreign in
/-- In the schema itself, the map shape speaks for it. -/
theorem get?_prune_shape {shape : StructuralNode} (inValues : schema.values = some shape) (value : Json) :
    (schema.prune (.object [(name, value)])).get? name = some (shape.prune value) := by
  simp [prune, StructuralNode.pruneMembers, StructuralNode.memberNode?, undeclared, inValues, Json.get?, Table.lookup]

end Foreign

theorem admits_documentSchema
    (opened : ∀ shape, schema.values = some shape → schema.facets.preserve = true ∧ shape.Lossless) :
    schema.documentSchema.admits = schema.admits := by
  funext path
  cases path with
  | nil => rfl
  | cons step rest =>
    cases step with
    | item position => rfl
    | member name =>
      cases declared : Table.lookup schema.properties name with
      | some node => exact admits_documentSchema_of_declared declared rest
      | none =>
        cases inValues : schema.values with
        | none =>
          simp [admits, documentSchema, documentFacets, StructuralNode.admitsBelow, StructuralNode.memberNode?,
            declared, inValues]
        | some shape =>
          obtain ⟨preserve, lossless⟩ := opened shape inValues
          simp [admits, documentSchema, documentFacets, StructuralNode.admitsBelow, StructuralNode.memberNode?,
            declared, inValues, preserve, lossless.admits]

/-- A schema prunes like its document just if the root has no map shape, or is open and loses nothing to it. A member
that only the map shape speaks for tells the two apart, whatever its value. -/
theorem prune_documentSchema_iff :
    (∀ value : Json, value.WellFormed → schema.documentSchema.prune value = schema.prune value) ↔
      ∀ shape, schema.values = some shape → schema.facets.preserve = true ∧ shape.Lossless := by
  constructor
  · intro agrees shape inValues
    obtain ⟨name, undeclared, foreign⟩ := schema.exists_foreign
    have alone (value : Json) (wellFormed : value.WellFormed) :
        (if schema.facets.preserve then some value else none) = some (shape.prune value) := by
      have member := agrees (.object [(name, value)]) ⟨by simp [Table.Ascending, Table.keys], wellFormed, trivial⟩
      rw [← get?_prune_documentSchema undeclared foreign, ← get?_prune_shape undeclared inValues, member]
    have opened : schema.facets.preserve = true := by
      have kept := alone .null trivial
      split at kept
      · assumption
      · cases kept
    refine ⟨opened, StructuralNode.lossless_of_prune_eq fun value wellFormed => ?_⟩
    have kept := alone value wellFormed
    rw [if_pos opened] at kept
    exact (Option.some.inj kept).symm
  · intro opened value _
    rw [prune_eq_retain, prune_eq_retain, admits_documentSchema opened]

end StructuralSchema

namespace SchemaTree

theorem schema_ofRoot_documentFacets {schema : StructuralSchema} (standalone : schema.Standalone) (root : String)
    (value : Json) :
    (Synthesized.ofRoot root [] schema.properties none schema.documentFacets).schema.prune value =
      schema.documentSchema.prune value := by
  have unchanged : Table.erase schema.properties StructuralSchema.metadataProperty = schema.properties :=
    Table.erase_eq_self standalone.noMetadata
  cases value <;>
    simp [Synthesized.ofRoot, unchanged, StructuralSchema.prune, StructuralSchema.documentSchema,
      StructuralSchema.documentFacets]

/-- The document of a synthesized schema can be read and synthesized, and what comes of it prunes the members that
the root declares as the schema does. All others are pruned alike just if the root has no map shape, or is open
and loses nothing to it. -/
theorem prune_again_iff {document : Json} (wellFormed : document.WellFormed) {tree : SchemaTree}
    (reads : read document = .ok tree) {kind version : String} {synthesized : Synthesized}
    (built : tree.synthesize kind version = .ok synthesized) :
    ∃ node, SchemaNode.read synthesized.schema.toJson = .ok node ∧
      ∃ again, (single synthesized.root node).synthesize kind version = .ok again ∧
        (∀ value name, (Table.lookup synthesized.schema.properties name).isSome = true →
          (again.schema.prune value).get? name = (synthesized.schema.prune value).get? name) ∧
        ((∀ value : Json, value.WellFormed → again.schema.prune value = synthesized.schema.prune value) ↔
          ∀ shape, synthesized.schema.values = some shape →
            synthesized.schema.facets.preserve = true ∧ shape.Lossless) := by
  obtain ⟨standalone, _⟩ := standalone_of_synthesize (tidy_of_read wellFormed reads).tidy built
  refine ⟨_, standalone.read_toJson, _, synthesize_documentRoot standalone synthesized.root kind version,
    fun value name declared => ?_, ?_⟩
  · obtain ⟨node, declared⟩ := Option.isSome_iff_exists.mp declared
    rw [schema_ofRoot_documentFacets standalone]
    exact StructuralSchema.get?_prune_congr (StructuralSchema.admits_documentSchema_of_declared declared) value
  · simp only [schema_ofRoot_documentFacets standalone]
    exact StructuralSchema.prune_documentSchema_iff

/-- A resource whose members are texts under any name. -/
def label : Json :=
  .object [("components", .object [("schemas", .object [
    ("Label", .object [("additionalProperties", .object [("type", .string "string")])])])])]

def labelTree : SchemaTree :=
  ⟨[("Label", .object [] (.shaped (.scalar (some .string) .empty)) ⟨[], false, .empty⟩)]⟩

def labelSynthesized : Synthesized :=
  ⟨"Label", ⟨[], some (.scalar (some .string) .empty), ⟨[], false, .empty⟩⟩, [], []⟩

theorem wellFormed_label : label.WellFormed := by
  simp only [label, Json.WellFormed, Json.WellFormedMembers, Table.Ascending, Table.keys]
  decide

theorem read_label : read label = .ok labelTree := by rfl

theorem synthesize_label : labelTree.synthesize "Label" "v1" = .ok labelSynthesized := by cbv

theorem prune_again_iff_label :
    label.WellFormed ∧ read label = .ok labelTree ∧ labelTree.synthesize "Label" "v1" = .ok labelSynthesized ∧
    ∃ node, SchemaNode.read labelSynthesized.schema.toJson = .ok node ∧
      ∃ again, (single labelSynthesized.root node).synthesize "Label" "v1" = .ok again ∧
        (∀ value name, (Table.lookup labelSynthesized.schema.properties name).isSome = true →
          (again.schema.prune value).get? name = (labelSynthesized.schema.prune value).get? name) ∧
        ((∀ value : Json, value.WellFormed → again.schema.prune value = labelSynthesized.schema.prune value) ↔
          ∀ shape, labelSynthesized.schema.values = some shape →
            labelSynthesized.schema.facets.preserve = true ∧ shape.Lossless) :=
  ⟨wellFormed_label, read_label, synthesize_label, prune_again_iff wellFormed_label read_label synthesize_label⟩

/-- A text that the schema keeps is dropped by what its document is read as. -/
theorem label_dropped :
    read label = .ok labelTree ∧ labelTree.synthesize "Label" "v1" = .ok labelSynthesized ∧
    labelSynthesized.schema.prune (.object [("color", .string "red")]) = .object [("color", .string "red")] ∧
    ∃ node again, SchemaNode.read labelSynthesized.schema.toJson = .ok node ∧
      (single labelSynthesized.root node).synthesize "Label" "v1" = .ok again ∧
      again.schema.prune (.object [("color", .string "red")]) = .object [] :=
  ⟨read_label, synthesize_label, rfl, .object [] .none ⟨[], false, .empty⟩,
    ⟨"Label", ⟨[], none, ⟨[], false, .empty⟩⟩, [], []⟩, by rfl, by cbv, by rfl⟩

end SchemaTree

end ResourceKinds
