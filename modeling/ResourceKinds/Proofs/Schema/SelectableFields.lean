import ResourceKinds.Proofs.Schema.PrunedPlaces
import ResourceKinds.Schema.Synthesis
import ResourceKinds.Proofs.Texts

namespace ResourceKinds

namespace FieldPath

/-- The names that are looked up: the pieces between the dots that are not empty, or else one empty name. -/
def names (path : String) : List String :=
  match Text.pieces '.' path with
  | [] => [""]
  | pieces => pieces

/-- The path with one dot before each of the names. -/
def plain (names : List String) : String := "." ++ ".".intercalate names

def Plain (names : List String) : Prop := names ≠ [] ∧ ∀ name ∈ names, name ≠ "" ∧ '.' ∉ name.toList

/-- Where the names of the path lead in a value. -/
def place (path : String) : Json.Path := (names path).map .member

/-- Behind a path of nothing but dots there are no names; what is looked up then is the empty name. -/
theorem names_cut (path : String) : names path =
    (Text.cut '.' (Text.dropLeading '.' path)).1 :: Text.pieces '.' (Text.cut '.' (Text.dropLeading '.' path)).2 := by
  have whole := Text.pieces_cut '.' (Text.dropLeading '.' path)
  rw [Text.pieces_dropLeading] at whole
  rw [names, whole]
  by_cases empty : Text.dropLeading '.' path = ""
  · rw [empty]
    rfl
  · have first := Text.cut_dropLeading empty
    simp [first]

theorem names_plain {names : List String} (isPlain : Plain names) : FieldPath.names (plain names) = names := by
  obtain ⟨nonempty, each⟩ := isPlain
  obtain ⟨name, rest, rfl⟩ := List.exists_cons_of_ne_nil nonempty
  have separate : ∀ part ∈ (name :: rest).map String.toList, '.' ∉ part :=
    List.forall_mem_map.mpr fun part inside => (each part inside).2
  have whole : Text.split '.' (plain (name :: rest)) = "" :: name :: rest := by
    rw [Text.split, plain, String.toList_append, String.toList_intercalate]
    have later := Text.splitChars_intercalate separate
    simp only [String.reduceToList, List.singleton_append, Text.splitChars, if_true, List.map_cons, later]
    simp
  have pieces : Text.pieces '.' (plain (name :: rest)) = name :: rest := by
    rw [Text.pieces, whole, List.filter_cons_of_neg (by decide), List.filter_eq_self]
    intro part inside
    simpa using (each part inside).1
  rw [FieldPath.names, pieces]

theorem names_eq_or_plain (path : String) : names path = [""] ∨ Plain (names path) := by
  unfold names
  split
  · exact .inl rfl
  · rename_i nonempty
    exact .inr ⟨nonempty, fun name => Text.mem_pieces⟩

end FieldPath

namespace StructuralNode

/-- The names lead from the properties to the node: each but the last is that of an object. -/
inductive Reaches : List (String × StructuralNode) → List String → StructuralNode → Prop
  | last {properties name node} (declared : Table.lookup properties name = some node) : Reaches properties [name] node
  | through {properties name rest inner values facets node}
      (declared : Table.lookup properties name = some (.object inner values facets)) (later : Reaches inner rest node) :
      Reaches properties (name :: rest) node

theorem reaches_iff {properties : List (String × StructuralNode)} {names : List String} {node : StructuralNode}
    (values : Option StructuralNode) (facets : ObjectFacets) :
    Reaches properties names node ↔ names ≠ [] ∧ (object properties values facets).follow? names = some node := by
  constructor
  · intro reaches
    refine ⟨by cases reaches <;> simp, ?_⟩
    induction reaches generalizing values facets with
    | last declared => simp [follow?, property?, declared]
    | through declared _ ih =>
      simp only [follow?, property?, declared]
      exact ih _ _
  · rintro ⟨nonempty, found⟩
    induction names generalizing properties values facets with
    | nil => exact absurd rfl nonempty
    | cons name rest ih =>
      simp only [follow?, property?] at found
      cases declared : Table.lookup properties name with
      | none => simp [declared] at found
      | some next =>
        simp only [declared] at found
        cases rest with
        | nil =>
          obtain rfl := Option.some.inj found
          exact .last declared
        | cons other rest =>
          cases next with
          | object inner values facets => exact .through declared (ih values facets nofun found)
          | _ => simp [follow?, property?] at found

variable {node part : StructuralNode} {path : Json.Path}

theorem Reaches.reader? {properties : List (String × StructuralNode)} {names : List String}
    (reaches : Reaches properties names node) (values : Option StructuralNode) (facets : ObjectFacets) :
    (object properties values facets).reader? (names.map .member) = some node := by
  induction reaches generalizing values facets with
  | last declared => simp [StructuralNode.reader?, next?, memberNode?, declared]
  | through declared _ ih =>
    simp only [List.map_cons, StructuralNode.reader?, next?, memberNode?, declared]
    exact ih _ _

/-- Beyond a place that the schema says something of, the node that reads what is there decides. -/
theorem admits_append (reads : node.reader? path = some part) (below : Json.Path) :
    node.admits (path ++ below) = part.admits below := by
  induction path generalizing node with
  | nil =>
    obtain rfl := Option.some.inj reads
    rfl
  | cons step rest ih =>
    obtain ⟨next, found, reads⟩ := Option.bind_eq_some_iff.mp reads
    rw [List.cons_append, admits_of_next found, ih reads]

theorem keepsWay_of_reader? (reads : node.reader? path = some part) : Json.keepsWay node.admits path = true := by
  induction path generalizing node with
  | nil => rfl
  | cons step rest ih =>
    obtain ⟨next, found, reads⟩ := Option.bind_eq_some_iff.mp reads
    have onward : (fun path => node.admits (step :: path)) = next.admits := funext (admits_of_next found)
    have here : node.admits [step] = true := admits_of_next found []
    rw [keepsWay_admits_cons, here, onward, ih reads, Bool.true_and]

/-- What pruning leaves at a place that the schema says something of: what was there, pruned by the node that reads
it. -/
theorem at?_prune (reads : node.reader? path = some part) (value : Json) :
    (node.prune value).at? path = (value.at? path).map part.prune := by
  have below : (fun below => node.admits (path ++ below)) = part.admits := funext (admits_append reads)
  rw [prune_eq_retain, Json.at?_retain, if_pos (keepsWay_of_reader? reads), below]
  congr 1
  exact funext fun value => (prune_eq_retain part value).symm

theorem prune_scalar (kind : Option ScalarKind) (annotations : Annotations) : (scalar kind annotations).prune = id := by
  funext value
  cases value <;> rfl

end StructuralNode

namespace StructuralSchema

open StructuralNode (Reaches)

theorem lookup?_eq (schema : StructuralSchema) (path : String) :
    schema.lookup? path = schema.node.follow? (FieldPath.names path) := by
  rw [FieldPath.names_cut, lookup?]
  generalize Text.cut '.' (Text.dropLeading '.' path) = parts
  obtain ⟨first, rest⟩ := parts
  simp only [node, StructuralNode.follow?, StructuralNode.property?]
  cases Table.lookup schema.properties first <;> rfl

theorem lookup?_eq_some {schema : StructuralSchema} {path : String} {node : StructuralNode} :
    schema.lookup? path = some node ↔ Reaches schema.properties (FieldPath.names path) node := by
  have nonempty : FieldPath.names path ≠ [] := by simp [FieldPath.names_cut]
  rw [lookup?_eq, StructuralSchema.node, StructuralNode.reaches_iff schema.values schema.facets]
  simp [nonempty]

theorem selectableFlaw?_eq_none {schema : StructuralSchema} {path : String} :
    schema.selectableFlaw? path = none ↔
      path.toList.head? = some '.' ∧ ∃ kind annotations, schema.lookup? path = some (.scalar kind annotations) := by
  rw [selectableFlaw?]
  split
  · simp_all
  · rename_i dotted
    split <;> simp_all

/-- A path is that of a selectable field just if it begins with a dot and its names lead from the properties of the
root to a scalar. Further dots make no difference: the names are the non-empty pieces between dots, and one empty name
where there are none. -/
theorem selectable_iff (schema : StructuralSchema) :
    (∀ path, schema.selectableFlaw? path = none ↔ path.toList.head? = some '.' ∧
        ∃ kind annotations, Reaches schema.properties (FieldPath.names path) (.scalar kind annotations)) ∧
      (∀ path, FieldPath.names path = [""] ∨ FieldPath.Plain (FieldPath.names path)) ∧
      ∀ names, FieldPath.Plain names → (schema.selectableFlaw? (FieldPath.plain names) = none ↔
        ∃ kind annotations, Reaches schema.properties names (.scalar kind annotations)) := by
  have general (path : String) : schema.selectableFlaw? path = none ↔ path.toList.head? = some '.' ∧
      ∃ kind annotations, Reaches schema.properties (FieldPath.names path) (.scalar kind annotations) := by
    simp only [selectableFlaw?_eq_none, lookup?_eq_some]
  refine ⟨general, FieldPath.names_eq_or_plain, fun names isPlain => ?_⟩
  have dotted : (FieldPath.plain names).toList.head? = some '.' := by simp [FieldPath.plain]
  rw [general, FieldPath.names_plain isPlain]
  simp only [dotted, true_and]

end StructuralSchema

namespace SchemaTree

/-- A root with a title below its `spec`, that gives all other members a shape with one field. -/
def titledMap : SchemaTree :=
  ⟨[("Issue", .object
      [("spec", .object [("title", .scalar (some .string) .empty)] .none ⟨[], false, .empty⟩)]
      (.shaped (.object [("note", .scalar (some .string) .empty)] .none ⟨[], false, .empty⟩))
      ⟨[], false, .empty⟩)]⟩

def titledMapSynthesized : Synthesized :=
  ⟨"Issue",
    ⟨[("spec", .object [("title", .scalar (some .string) .empty)] none ⟨[], false, .empty⟩)],
      some (.object [("note", .scalar (some .string) .empty)] none ⟨[], false, .empty⟩), ⟨[], false, .empty⟩⟩,
    [], []⟩

theorem synthesize_titledMap : titledMap.synthesize "Issue" "v1" = .ok titledMapSynthesized := by cbv

/-- A path with two dots between its names is that of a selectable field too, though no names give it. -/
theorem doubled_dot_selectable :
    titledMap.synthesize "Issue" "v1" = .ok titledMapSynthesized ∧
      titledMapSynthesized.schema.selectableFlaw? ".spec..title" = none ∧
      ¬ ∀ path, titledMapSynthesized.schema.selectableFlaw? path = none ↔
        ∃ names, FieldPath.Plain names ∧ path = FieldPath.plain names ∧ ∃ kind annotations,
          StructuralNode.Reaches titledMapSynthesized.schema.properties names (.scalar kind annotations) := by
  have accepted : titledMapSynthesized.schema.selectableFlaw? ".spec..title" = none := rfl
  refine ⟨synthesize_titledMap, accepted, fun wellFormed => ?_⟩
  obtain ⟨names, isPlain, path, _⟩ := (wellFormed ".spec..title").mp accepted
  have same : FieldPath.names ".spec..title" = names := by rw [path, FieldPath.names_plain isPlain]
  have pieces : FieldPath.names ".spec..title" = ["spec", "title"] := rfl
  rw [← same, pieces] at path
  exact absurd path (by decide)

end SchemaTree

namespace StructuralSchema

/-- Below the root, pruning a whole object is pruning by the node of the root wherever the schema says something. -/
theorem at?_prune {schema : StructuralSchema} {name : String} {rest : Json.Path} {part : StructuralNode}
    (reads : schema.node.reader? (.member name :: rest) = some part) (value : Json) :
    (schema.prune value).at? (.member name :: rest) = (value.at? (.member name :: rest)).map part.prune := by
  obtain ⟨next, governed, _⟩ := Option.bind_eq_some_iff.mp reads
  have same (below : Json.Path) :
      schema.admits (.member name :: below) = schema.node.admits (.member name :: below) := by
    have root : StructuralNode.memberNode? schema.properties schema.values name = some next := governed
    simp only [admits, StructuralNode.admitsBelow, node, StructuralNode.admits, root]
  have way : Json.keepsWay schema.admits (.member name :: rest) =
      Json.keepsWay schema.node.admits (.member name :: rest) := by
    simp only [Json.keepsWay, same]
  have beyond : (fun below => schema.admits (.member name :: rest ++ below)) =
      fun below => schema.node.admits (.member name :: rest ++ below) := funext fun below => same (rest ++ below)
  rw [← StructuralNode.at?_prune reads, prune_eq_retain, StructuralNode.prune_eq_retain, Json.at?_retain,
    Json.at?_retain, way, beyond]

/-- Pruning leaves at the place of a selectable field exactly what was there. The place is that of the names by which
the path is looked up. -/
theorem prune_keeps_selectable {schema : StructuralSchema} {path : String}
    (selectable : schema.selectableFlaw? path = none) :
    schema.lookup? path = schema.node.follow? (FieldPath.names path) ∧
      ∀ value : Json, (schema.prune value).at? (FieldPath.place path) = value.at? (FieldPath.place path) := by
  refine ⟨schema.lookup?_eq path, fun value => ?_⟩
  obtain ⟨_, kind, annotations, found⟩ := selectableFlaw?_eq_none.mp selectable
  have reads := (lookup?_eq_some.mp found).reader? schema.values schema.facets
  rw [FieldPath.place, FieldPath.names_cut, List.map_cons] at *
  rw [at?_prune reads, StructuralNode.prune_scalar, Option.map_id]
  rfl

end StructuralSchema

namespace SchemaTree

/-- A field beside the title and one of the status that the schema does not say anything of. -/
def titledValue : Json :=
  .object [("spec", .object [("size", .null), ("title", .string "hello")]), ("status", .object [("phase", .null)])]

theorem title_kept_titledMap :
    titledMap.synthesize "Issue" "v1" = .ok titledMapSynthesized ∧
      titledMapSynthesized.schema.selectableFlaw? ".spec.title" = none ∧
      titledMapSynthesized.schema.prune titledValue =
        .object [("spec", .object [("title", .string "hello")]), ("status", .object [])] ∧
      titledValue.at? (FieldPath.place ".spec.title") = some (.string "hello") ∧
      (titledMapSynthesized.schema.prune titledValue).at? (FieldPath.place ".spec.title") =
        titledValue.at? (FieldPath.place ".spec.title") := by
  have selectable : titledMapSynthesized.schema.selectableFlaw? ".spec.title" = none := rfl
  exact ⟨synthesize_titledMap, selectable, rfl, rfl,
    (StructuralSchema.prune_keeps_selectable selectable).2 titledValue⟩

end SchemaTree

end ResourceKinds
