import ResourceKinds.Schema.Pruning
import ResourceKinds.Proofs.Json.Retain

namespace ResourceKinds

open Json (Path)

namespace StructuralNode

/-- Every field that the path goes through is declared, has a shape or lies in an open object. Where
the path leaves the schema, everything is admitted. -/
def admits (node : StructuralNode) : Path → Bool
  | [] => true
  | .member name :: rest => match node with
    | .object properties values facets => match memberNode? properties values name with
      | some next => next.admits rest
      | none => facets.preserve
    | _ => true
  | .item _ :: rest => match node with
    | .array (some items) _ => items.admits rest
    | _ => true

/-- The place below a member is admitted, where `keep` decides about names that are not declared. -/
def admitsBelow (properties : List (String × StructuralNode)) (values : Option StructuralNode)
    (keep : String → Bool) (name : String) (rest : Path) : Bool :=
  match memberNode? properties values name with
  | some next => next.admits rest
  | none => keep name

mutual

theorem prune_eq_retain (node : StructuralNode) : (value : Json) → node.prune value = value.retain node.admits
  | .null => by cases node <;> rfl
  | .bool _ => by cases node <;> rfl
  | .number _ => by cases node <;> rfl
  | .string _ => by cases node <;> rfl
  | .array elements => by
    match node with
    | .array (some items) annotations =>
      have same := pruneItems_eq_retainItems items (array (some items) annotations).admits 0 elements fun _ _ => rfl
      simp only [prune, Json.retain, same]
    | .array none _ | .object _ _ _ | .scalar _ _ =>
      simp only [prune, Json.retain]
      rw [Json.retainItems_open fun _ _ => rfl]
  | .object members => by
    match node with
    | .object properties values facets =>
      have same := pruneMembers_eq_retainMembers (object properties values facets).admits members fun _ _ => rfl
      simp only [prune, Json.retain, same]
    | .array _ _ | .scalar _ _ =>
      simp only [prune, Json.retain]
      rw [Json.retainMembers_open fun _ _ => rfl]

theorem pruneItems_eq_retainItems (node : StructuralNode) (keep : Path → Bool) (start : Nat) : (items : List Json) →
    (∀ position rest, keep (.item position :: rest) = node.admits rest) →
    node.pruneItems items = Json.retainItems keep start items
  | [], _ => rfl
  | item :: rest, same => by
    have first := prune_eq_retain node item
    have later := pruneItems_eq_retainItems node keep (start + 1) rest same
    simp only [pruneItems, Json.retainItems, first, later, same]

theorem pruneMembers_eq_retainMembers {properties : List (String × StructuralNode)} {values : Option StructuralNode}
    {keep : String → Bool} (keepPath : Path → Bool) : (members : List (String × Json)) →
    (∀ name rest, keepPath (.member name :: rest) = admitsBelow properties values keep name rest) →
    pruneMembers properties values keep members = Json.retainMembers keepPath members
  | [], _ => rfl
  | (name, value) :: rest, same => by
    have later := pruneMembers_eq_retainMembers keepPath rest same
    simp only [pruneMembers, Json.retainMembers, same, admitsBelow]
    cases memberNode? properties values name with
    | some next =>
      have first := prune_eq_retain next value
      simp only [admits, if_true, first, later]
    | none =>
      cases kept : keep name with
      | true => simp only [if_true, Json.retain_all, later]
      | false => simp only [Bool.false_eq_true, if_false, later]

end

end StructuralNode

namespace StructuralSchema

/-- As for a node, except that the type members are admitted whatever is declared. -/
def admits (schema : StructuralSchema) : Path → Bool
  | .member name :: rest =>
    StructuralNode.admitsBelow schema.properties schema.values
      (fun name => schema.facets.preserve || typeMembers.contains name) name rest
  | _ => true

theorem prune_eq_retain (schema : StructuralSchema) (value : Json) :
    schema.prune value = value.retain schema.admits := by
  cases value with
  | object members =>
    simp only [prune, Json.retain]
    rw [StructuralNode.pruneMembers_eq_retainMembers schema.admits members fun _ _ => rfl]
  | array items =>
    simp only [prune, Json.retain]
    rw [Json.retainItems_open fun _ _ => rfl]
  | _ => rfl

/-- The value has a field there that pruning takes away. -/
def removes (schema : StructuralSchema) (value : Json) (path : Path) : Bool :=
  value.has path && !(schema.prune value).has path

theorem prune_comm (first second : StructuralSchema) (value : Json) :
    second.prune (first.prune value) = first.prune (second.prune value) := by
  simp only [prune_eq_retain, Json.retain_comm first.admits second.admits]

theorem prune_idem (schema : StructuralSchema) (value : Json) :
    schema.prune (schema.prune value) = schema.prune value := by
  simp only [prune_eq_retain, Json.retain_idem]

theorem prune_prune_idem (first second : StructuralSchema) (value : Json) :
    second.prune (first.prune (second.prune (first.prune value))) = second.prune (first.prune value) := by
  rw [prune_comm second first, prune_idem, prune_idem]

/-- The value pruned by one schema after another. -/
def pruneAll (schemas : List StructuralSchema) (value : Json) : Json :=
  schemas.foldl (fun value schema => schema.prune value) value

/-- Successive prunings keep what all of the schemas admit. -/
theorem pruneAll_eq_retain (schemas : List StructuralSchema) (value : Json) :
    pruneAll schemas value = value.retain fun path => schemas.all fun schema => schema.admits path := by
  induction schemas generalizing value with
  | nil => exact (Json.retain_all value).symm
  | cons first rest ih =>
    have later : pruneAll (first :: rest) value = pruneAll rest (first.prune value) := rfl
    rw [later, ih, prune_eq_retain, Json.retain_retain]
    rfl

theorem pruneAll_congr {schemas others : List StructuralSchema} (same : ∀ schema, schema ∈ schemas ↔ schema ∈ others)
    (value : Json) : pruneAll schemas value = pruneAll others value := by
  have alike (path : Path) : schemas.all (·.admits path) = others.all (·.admits path) := by
    rw [Bool.eq_iff_iff, List.all_eq_true, List.all_eq_true]
    exact forall_congr' fun schema => imp_congr_left (same schema)
  simp only [pruneAll_eq_retain, alike]

/-- Two prunings give the same in either order, and one of them done twice gives what it gives once. However
many there are, only which schemas take part counts. -/
theorem prunings_commute (first second : StructuralSchema) (value : Json) :
    second.prune (first.prune value) = first.prune (second.prune value) ∧
      first.prune (first.prune value) = first.prune value ∧
      ∀ schemas others : List StructuralSchema, (∀ schema, schema ∈ schemas ↔ schema ∈ others) →
        pruneAll schemas value = pruneAll others value :=
  ⟨prune_comm first second value, prune_idem first value, fun _ _ same => pruneAll_congr same value⟩

/-- Pruning by two schemas takes away the fields that either of them takes away, and no others. -/
theorem prune_prune_eq_without {value : Json} (wellFormed : value.WellFormed) (first second : StructuralSchema) :
    second.prune (first.prune value) = value.without fun path =>
      first.removes value path || second.removes value path := by
  simp only [removes, prune_eq_retain, Json.retain_retain]
  exact Json.retain_and_eq_without wellFormed first.admits second.admits

end StructuralSchema

end ResourceKinds
