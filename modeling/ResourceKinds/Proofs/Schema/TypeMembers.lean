import Mathlib.Algebra.Order.BigOperators.Group.List
import Mathlib.Algebra.Order.Group.Nat
import ResourceKinds.Proofs.Schema.Pruning
import ResourceKinds.Proofs.Schema.Resynthesis

namespace ResourceKinds

namespace StructuralNode

/-- No value loses a field to the node: each of its objects gives a shape to all names or is open. -/
inductive Lossless : StructuralNode → Prop
  | object {properties values facets} :
      (∀ name node, Table.lookup properties name = some node → Lossless node) →
      (∀ shape, values = some shape → Lossless shape) → (values = none → facets.preserve = true) →
      Lossless (.object properties values facets)
  | array {items annotations} : (∀ node, items = some node → Lossless node) → Lossless (.array items annotations)
  | scalar {kind annotations} : Lossless (.scalar kind annotations)

theorem Lossless.admits {node : StructuralNode} (lossless : node.Lossless) (path : Json.Path) :
    node.admits path = true := by
  induction path generalizing node with
  | nil => rfl
  | cons step rest ih =>
    cases lossless with
    | scalar => cases step <;> rfl
    | @array items annotations inItems =>
      cases step with
      | member name => rfl
      | item position =>
        cases items with
        | none => rfl
        | some item => exact ih (inItems item rfl)
    | @object properties values facets inProperties inValues opened =>
      cases step with
      | item position => rfl
      | member name =>
        simp only [StructuralNode.admits, memberNode?]
        cases found : Table.lookup properties name with
        | some next => exact ih (inProperties name next found)
        | none =>
          cases values with
          | some shape => exact ih (inValues shape rfl)
          | none => exact opened rfl

theorem Lossless.prune_eq {node : StructuralNode} (lossless : node.Lossless) (value : Json) :
    node.prune value = value := by
  have all : node.admits = fun _ => true := funext lossless.admits
  rw [prune_eq_retain, all, Json.retain_all]

/-- There is always a name that a table does not have: one longer than all of its names together. -/
theorem exists_undeclared {α : Type} (properties : List (String × α)) :
    ∃ name, Table.lookup properties name = none := by
  let total := (properties.map fun entry => entry.1.length).sum
  refine ⟨String.ofList (List.replicate (total + 1) 'a'), Table.lookup_eq_none.mpr fun member => ?_⟩
  obtain ⟨entry, inside, named⟩ := List.mem_map.mp member
  have bounded : entry.1.length ≤ total := List.le_sum_of_mem (List.mem_map_of_mem inside)
  rw [named, String.length_ofList, List.length_replicate] at bounded
  omega

/-- A node that changes no value is lossless. -/
theorem lossless_of_prune_eq {node : StructuralNode}
    (untouched : ∀ value : Json, value.WellFormed → node.prune value = value) : node.Lossless := by
  induction node using StructuralNode.induction with
  | scalar kind annotations => exact .scalar
  | array items annotations inItems =>
    refine .array fun item same => inItems item same fun value wellFormed => ?_
    subst same
    have alone := untouched (.array [value]) ⟨wellFormed, trivial⟩
    simpa [prune, pruneItems] using alone
  | object properties values facets inProperties inValues =>
    have below (name : String) (next : StructuralNode) (governed : memberNode? properties values name = some next)
        (value : Json) (wellFormed : value.WellFormed) : next.prune value = value := by
      have alone := untouched (.object [(name, value)]) ⟨by simp [Table.Ascending, Table.keys], wellFormed, trivial⟩
      simpa [prune, pruneMembers, governed] using alone
    obtain ⟨fresh, undeclared⟩ := exists_undeclared properties
    refine .object ?_ ?_ ?_
    · intro name next found
      exact inProperties (name, next) (Table.mem_of_lookup found) (below name next (by simp [memberNode?, found]))
    · rintro shape rfl
      exact inValues shape rfl (below fresh shape (by simp [memberNode?, undeclared]))
    · rintro rfl
      have alone := untouched (.object [(fresh, .null)]) ⟨by simp [Table.Ascending, Table.keys], trivial, trivial⟩
      simpa [prune, pruneMembers, memberNode?, undeclared] using alone

theorem lookup_pruneMembers {properties : List (String × StructuralNode)} {values : Option StructuralNode}
    (keep : String → Bool) {name : String} (kept : keep name = true) (members : List (String × Json)) :
    Table.lookup (pruneMembers properties values keep members) name =
      (Table.lookup members name).map fun value => match memberNode? properties values name with
        | some node => node.prune value
        | none => value := by
  induction members with
  | nil => rfl
  | cons head rest ih =>
    obtain ⟨first, value⟩ := head
    by_cases same : first = name
    · subst same
      cases governed : memberNode? properties values first with
      | some node => simp [pruneMembers, governed, Table.lookup]
      | none => simp [pruneMembers, governed, kept, Table.lookup]
    · cases governed : memberNode? properties values first with
      | some node => simpa [pruneMembers, governed, Table.lookup, same] using ih
      | none => cases open_ : keep first <;> simpa [pruneMembers, governed, Table.lookup, same, open_] using ih

end StructuralNode

namespace StructuralSchema

/-- The node that the schema has for a root member: its property, or else the map shape. -/
def rootNode? (schema : StructuralSchema) (name : String) : Option StructuralNode :=
  StructuralNode.memberNode? schema.properties schema.values name

theorem get?_prune {schema : StructuralSchema} {name : String} (isType : name ∈ typeMembers) (value : Json) :
    (schema.prune value).get? name = (value.get? name).map fun member => match schema.rootNode? name with
      | some node => node.prune member
      | none => member := by
  cases value with
  | object members =>
    have kept : (schema.facets.preserve || typeMembers.contains name) = true := by simp [isType]
    exact StructuralNode.lookup_pruneMembers (fun name => schema.facets.preserve || typeMembers.contains name)
      kept members
  | _ => rfl

/-- A type member is left alone in every object just if no value loses a field to its node. -/
theorem member_untouched_iff {schema : StructuralSchema} {name : String} (isType : name ∈ typeMembers) :
    (∀ value : Json, value.WellFormed → (schema.prune value).get? name = value.get? name) ↔
      ∀ node, schema.rootNode? name = some node → node.Lossless := by
  constructor
  · intro untouched node governed
    refine StructuralNode.lossless_of_prune_eq fun member wellFormed => ?_
    have alone := untouched (.object [(name, member)]) ⟨by simp [Table.Ascending, Table.keys], wellFormed, trivial⟩
    rw [get?_prune isType, governed] at alone
    simpa [Json.get?, Table.lookup] using alone
  · intro lossless value _
    rw [get?_prune isType]
    cases governed : schema.rootNode? name with
    | none => simp
    | some node => simp [(lossless node governed).prune_eq]

end StructuralSchema

namespace SchemaTree

theorem synthesize_metadata {tree : SchemaTree} {kind version : String} {synthesized : Synthesized}
    (built : tree.synthesize kind version = .ok synthesized) :
    Table.lookup synthesized.schema.properties "metadata" = none := by
  obtain ⟨flat, properties, values, facets, _, _, rfl⟩ := synthesize_eq_ok built
  exact Table.lookup_erase_self properties "metadata"

/-- A root that gives all of its members a shape with one field. -/
def typedMap : SchemaTree :=
  ⟨[("Issue", .object [] (.shaped (.object [("a", .scalar (some .string) .empty)] .none ⟨[], false, .empty⟩))
    ⟨[], false, .empty⟩)]⟩

def typedMapSynthesized : Synthesized :=
  ⟨"Issue", ⟨[], some (.object [("a", .scalar (some .string) .empty)] none ⟨[], false, .empty⟩),
    ⟨[], false, .empty⟩⟩, [], []⟩

theorem synthesize_typedMap : typedMap.synthesize "Issue" "v1" = .ok typedMapSynthesized := by
  simp [synthesize, flatten, roots, referenced, names, get?, typedMap, typedMapSynthesized, SchemaNode.references,
    SchemaNode.referencesOf, Table.keys, Table.lookup, expand, expandEach, expandValues, SchemaNode.toStructural,
    SchemaNode.toStructuralEach, SchemaNode.isUntyped, Synthesized.ofRoot, Table.erase, bind, Except.bind, pure,
    Except.pure]

/-- The type members are always there after pruning when they were there before. Their contents stay
too just if the root has no map shape that drops fields, and declares no `apiVersion` or `kind` that does. -/
theorem typeMembers_untouched_iff {tree : SchemaTree} {kind version : String} {synthesized : Synthesized}
    (built : tree.synthesize kind version = .ok synthesized) :
    (∀ value : Json, ∀ name ∈ StructuralSchema.typeMembers,
      ((synthesized.schema.prune value).get? name).isSome = (value.get? name).isSome) ∧
    ((∀ value : Json, value.WellFormed → ∀ name ∈ StructuralSchema.typeMembers,
        (synthesized.schema.prune value).get? name = value.get? name) ↔
      (∀ shape, synthesized.schema.values = some shape → shape.Lossless) ∧
      ∀ name ∈ ["apiVersion", "kind"], ∀ node, Table.lookup synthesized.schema.properties name = some node →
        node.Lossless) := by
  have erased := synthesize_metadata built
  refine ⟨fun value name isType => ?_, fun untouched =>
    ⟨fun shape inValues => ?_, fun name named node declared => ?_⟩, ?_⟩
  · rw [StructuralSchema.get?_prune isType, Option.isSome_map]
  · have isType : "metadata" ∈ StructuralSchema.typeMembers := by decide
    have alone := (StructuralSchema.member_untouched_iff isType).mp
      fun value wellFormed => untouched value wellFormed "metadata" isType
    exact alone shape (by simp [StructuralSchema.rootNode?, StructuralNode.memberNode?, erased, inValues])
  · have isType : name ∈ StructuralSchema.typeMembers := List.mem_append_left ["metadata"] named
    have alone := (StructuralSchema.member_untouched_iff isType).mp
      fun value wellFormed => untouched value wellFormed name isType
    exact alone node (by simp [StructuralSchema.rootNode?, StructuralNode.memberNode?, declared])
  · rintro ⟨inValues, inProperties⟩ value wellFormed name isType
    refine (StructuralSchema.member_untouched_iff isType).mpr (fun node governed => ?_) value wellFormed
    simp only [StructuralSchema.rootNode?, StructuralNode.memberNode?] at governed
    cases declared : Table.lookup synthesized.schema.properties name with
    | none =>
      rw [declared] at governed
      exact inValues node governed
    | some property =>
      rw [declared] at governed
      obtain rfl : property = node := Option.some.inj governed
      have notMetadata : name ≠ "metadata" := by
        rintro rfl
        rw [erased] at declared
        cases declared
      refine inProperties name ?_ property declared
      simpa [StructuralSchema.typeMembers, notMetadata] using isType

theorem typeMembers_untouched_iff_typedMap :
    typedMap.synthesize "Issue" "v1" = .ok typedMapSynthesized ∧
    ((∀ value : Json, value.WellFormed → ∀ name ∈ StructuralSchema.typeMembers,
        (typedMapSynthesized.schema.prune value).get? name = value.get? name) ↔
      (∀ shape, typedMapSynthesized.schema.values = some shape → shape.Lossless) ∧
      ∀ name ∈ ["apiVersion", "kind"], ∀ node,
        Table.lookup typedMapSynthesized.schema.properties name = some node → node.Lossless) :=
  ⟨synthesize_typedMap, (typeMembers_untouched_iff synthesize_typedMap).2⟩

/-- The name of a resource is gone once the map shape of the root has been applied to its metadata. -/
theorem metadata_emptied :
    typedMap.synthesize "Issue" "v1" = .ok typedMapSynthesized ∧
    (Json.object [("metadata", .object [("name", .string "x")])]).get? "metadata" =
      some (.object [("name", .string "x")]) ∧
    (typedMapSynthesized.schema.prune (.object [("metadata", .object [("name", .string "x")])])).get? "metadata" =
      some (.object []) :=
  ⟨synthesize_typedMap, rfl, rfl⟩

end SchemaTree

end ResourceKinds
