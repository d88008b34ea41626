import ResourceKinds.Proofs.Schema.Pruning
import ResourceKinds.Proofs.Schema.Resolution
import ResourceKinds.Proofs.Schema.Resynthesis

namespace ResourceKinds

open Json (Path)

namespace SchemaTree

mutual

/-- Drops the members that are not declared, by the same rules as in a structural schema. A chain of references
without an end declares no members. -/
def prune (tree : SchemaTree) (node : SchemaNode) : Json → Json
  | .object members => match tree.resolve? node with
    | some (.object properties values facets) =>
      .object (pruneMembers tree properties values (values.isUnconstrained || facets.preserve) members)
    | some _ => .object members
    | none => .object []
  | .array elements => match tree.resolve? node with
    | some (.array (some item) _) => .array (pruneItems tree item elements)
    | _ => .array elements
  | value => value

def pruneItems (tree : SchemaTree) (item : SchemaNode) : List Json → List Json
  | [] => []
  | element :: rest => tree.prune item element :: pruneItems tree item rest

/-- The members that are declared or have a shape, and the others if they are to be kept. -/
def pruneMembers (tree : SchemaTree) (properties : List (String × SchemaNode)) (values : MapValues SchemaNode)
    (keep : Bool) : List (String × Json) → List (String × Json)
  | [] => []
  | (name, value) :: rest => match SchemaNode.memberNode? properties values name with
    | some node => (name, tree.prune node value) :: pruneMembers tree properties values keep rest
    | none =>
      if keep then (name, value) :: pruneMembers tree properties values keep rest
      else pruneMembers tree properties values keep rest

end

/-- Every field that the path goes through is declared, has a shape or lies in an open object. Where the path
leaves the tree, everything is kept. -/
def keeps (tree : SchemaTree) (node : SchemaNode) : Path → Bool
  | [] => true
  | .member name :: rest => match tree.resolve? node with
    | some (.object properties values facets) => match SchemaNode.memberNode? properties values name with
      | some next => tree.keeps next rest
      | none => values.isUnconstrained || facets.preserve
    | some _ => true
    | none => false
  | .item _ :: rest => match tree.resolve? node with
    | some (.array (some item) _) => tree.keeps item rest
    | _ => true

variable {tree : SchemaTree}

mutual

theorem prune_eq_retain (node : SchemaNode) : (value : Json) → tree.prune node value = value.retain (tree.keeps node)
  | .null | .bool _ | .number _ | .string _ => by simp only [prune, Json.retain]
  | .array elements => by
    cases ends : tree.resolve? node with
    | none =>
      simp only [prune, ends, Json.retain]
      rw [Json.retainItems_open fun _ _ => by simp only [keeps, ends]]
    | some final =>
      match final with
      | .array (some item) annotations =>
        have same := pruneItems_eq_retainItems item (tree.keeps node) 0 elements fun _ _ => by simp only [keeps, ends]
        simp only [prune, ends, Json.retain, same]
      | .array none _ | .object _ _ _ | .scalar _ _ | .reference _ =>
        simp only [prune, ends, Json.retain]
        rw [Json.retainItems_open fun _ _ => by simp only [keeps, ends]]
  | .object members => by
    cases ends : tree.resolve? node with
    | none =>
      simp only [prune, ends, Json.retain]
      rw [Json.retainMembers_none fun _ => by simp only [keeps, ends]]
    | some final =>
      match final with
      | .object properties values facets =>
        have same := pruneMembers_eq_retainMembers properties values (values.isUnconstrained || facets.preserve)
          (tree.keeps node) members fun _ _ => by simp only [keeps, ends]
        simp only [prune, ends, Json.retain, same]
      | .array _ _ | .scalar _ _ | .reference _ =>
        simp only [prune, ends, Json.retain]
        rw [Json.retainMembers_open fun _ _ => by simp only [keeps, ends]]

theorem pruneItems_eq_retainItems (item : SchemaNode) (keep : Path → Bool) (start : Nat) : (elements : List Json) →
    (∀ position rest, keep (.item position :: rest) = tree.keeps item rest) →
    tree.pruneItems item elements = Json.retainItems keep start elements
  | [], _ => by simp only [pruneItems, Json.retainItems]
  | element :: rest, same => by
    have first := prune_eq_retain item element
    have later := pruneItems_eq_retainItems item keep (start + 1) rest same
    simp only [pruneItems, Json.retainItems, first, later, same]

theorem pruneMembers_eq_retainMembers (properties : List (String × SchemaNode)) (values : MapValues SchemaNode)
    (opened : Bool) (keep : Path → Bool) : (members : List (String × Json)) →
    (∀ name rest, keep (.member name :: rest) = match SchemaNode.memberNode? properties values name with
      | some next => tree.keeps next rest
      | none => opened) →
    tree.pruneMembers properties values opened members = Json.retainMembers keep members
  | [], _ => by simp only [pruneMembers, Json.retainMembers]
  | (name, value) :: rest, same => by
    have later := pruneMembers_eq_retainMembers properties values opened keep rest same
    simp only [pruneMembers, Json.retainMembers, same]
    cases SchemaNode.memberNode? properties values name with
    | some next =>
      have first := prune_eq_retain next value
      simp only [keeps, if_true, first, later]
    | none =>
      cases opened with
      | true => simp only [if_true, Json.retain_all, later]
      | false => simp only [Bool.false_eq_true, if_false, later]

end

theorem keeps_reference {name : String} {target : SchemaNode} (found : tree.get? name = some target) (path : Path) :
    tree.keeps (.reference name) path = tree.keeps target path := by
  cases path with
  | nil => simp only [keeps]
  | cons step rest => cases step <;> simp only [keeps, resolve?_reference found]

/-- An open object keeps everything. -/
theorem keeps_openMap (path : Path) : tree.keeps .openMap path = true := by
  cases path with
  | nil => simp only [keeps]
  | cons step rest =>
    cases step <;>
      simp [keeps, SchemaNode.openMap, SchemaNode.memberNode?, MapValues.shape?, Table.lookup, ObjectFacets.openMap]

theorem keeps_scalar {kind : Option ScalarKind} {annotations : Annotations} (path : Path) :
    tree.keeps (.scalar kind annotations) path = true := by
  cases path with
  | nil => simp only [keeps]
  | cons step rest => cases step <;> simp only [keeps, resolve?_scalar]

theorem keeps_of_isUntyped {node : SchemaNode} (untyped : node.isUntyped = true) (path : Path) :
    tree.keeps node path = true := by
  cases node with
  | scalar kind annotations => exact keeps_scalar path
  | _ => cases untyped

/-- A node without references prunes like its structural form, along whatever tree. -/
theorem admits_toStructural {node : SchemaNode} {form : StructuralNode} (formed : node.toStructural = .ok form)
    (path : Path) : form.admits path = tree.keeps node path := by
  induction path generalizing node form with
  | nil => simp only [StructuralNode.admits, keeps]
  | cons step rest ih =>
    cases node with
    | object properties values facets =>
      obtain ⟨forms, each, shapes⟩ := SchemaNode.toStructural_object formed
      cases step with
      | item position =>
        obtain ⟨_, rfl⟩ | ⟨_, rfl⟩ | ⟨_, _, _, _, _, rfl⟩ := shapes <;> simp [StructuralNode.admits, keeps]
      | member name =>
        have declared := (SchemaNode.derived_of_toStructuralEach each).lookup name
        obtain ⟨rfl, rfl⟩ | ⟨opened, rfl⟩ | ⟨shape, inShape, rfl, _, inner, rfl⟩ := shapes
        all_goals
          simp only [StructuralNode.admits, StructuralNode.memberNode?, keeps, resolve?_object, SchemaNode.memberNode?]
          generalize Table.lookup properties name = node, Table.lookup forms name = inNode at declared ⊢
          rcases declared with formed | _
          · exact ih formed
        · rfl
        · obtain rfl | ⟨shape, rfl, untyped⟩ := opened
          · rfl
          · exact (keeps_of_isUntyped untyped rest).symm
        · exact ih inner
    | array items annotations =>
      obtain ⟨results, rfl, inItems⟩ := SchemaNode.toStructural_array formed
      cases inItems with
      | none => cases step <;> simp [StructuralNode.admits, keeps]
      | some inner => cases step <;> simp [StructuralNode.admits, keeps, ih inner]
    | scalar kind annotations =>
      obtain rfl := Except.ok.inj formed
      cases step <;> simp [StructuralNode.admits, keeps]
    | reference name => cases formed

section Expansion

variable {stack : List String} {node expanded : SchemaNode} {cycles : List String}

/-- An expansion keeps all that the node keeps, and nothing else unless it cuts off some recursion. -/
theorem keeps_expandAfresh (done : tree.expandAfresh stack node = .ok (expanded, cycles)) (path : Path) :
    (tree.keeps node path = true → empty.keeps expanded path = true) ∧
      (cycles = [] → empty.keeps expanded path = tree.keeps node path) := by
  induction stack, node using walk_induction tree generalizing expanded cycles path with
  | object stack properties values facets inMembers =>
    obtain ⟨nodes, shapes, rfl, opened, absent, present⟩ := expandAfresh_member done
    match path with
    | [] | .item _ :: _ => simp [keeps]
    | .member name :: rest =>
      simp only [keeps, resolve?_object]
      cases chosen : SchemaNode.memberNode? properties values name with
      | none => simp [absent name chosen, opened]
      | some node =>
        obtain ⟨result, chosenToo, cuts, fewer, inner⟩ := present name node chosen
        rw [chosenToo]
        obtain ⟨more, same⟩ := inMembers name node chosen inner rest
        exact ⟨more, fun none => same (List.subset_nil.mp (none ▸ fewer))⟩
  | array stack items annotations inItems =>
    obtain ⟨results, rfl, inItem⟩ := expandAfresh_array done
    cases inItem with
    | none => cases path with
      | nil => simp [keeps]
      | cons step rest => cases step <;> simp [keeps]
    | some inner =>
      match path with
      | [] | .member _ :: _ => simp [keeps]
      | .item _ :: rest =>
        simp only [keeps, resolve?_array]
        exact inItems _ rfl inner rest
  | scalar stack kind annotations =>
    rw [expandAfresh_scalar] at done
    obtain ⟨rfl, rfl⟩ := Prod.mk.inj (Except.ok.inj done)
    simp [keeps_scalar]
  | reference stack name inTarget =>
    obtain ⟨target, found, ⟨_, rfl, rfl⟩ | ⟨closed, done⟩⟩ := expandAfresh_reference done
    · simp [keeps_openMap]
    · simp only [keeps_reference found]
      exact inTarget target found closed done path

theorem exists_toStructuralEach {nodes : List (String × SchemaNode)}
    (each : ∀ member ∈ nodes, ∃ form, member.2.toStructural = .ok form) :
    ∃ forms, SchemaNode.toStructuralEach nodes = .ok forms := by
  induction nodes with
  | nil => exact ⟨[], rfl⟩
  | cons head rest ih =>
    obtain ⟨form, first⟩ := each head (List.mem_cons_self ..)
    obtain ⟨forms, later⟩ := ih fun member inside => each member (List.mem_cons_of_mem _ inside)
    exact ⟨(head.1, form) :: forms, by simp only [SchemaNode.toStructuralEach, first, later]; rfl⟩

/-- An expansion has a structural form: no reference is left in it. -/
theorem exists_toStructural (done : tree.expandAfresh stack node = .ok (expanded, cycles)) :
    ∃ form, expanded.toStructural = .ok form := by
  induction stack, node using expansion_induction tree generalizing expanded cycles with
  | object stack properties values facets inProperties inValues =>
    obtain ⟨members, shapes, rfl, derived, _, inShape⟩ := expandAfresh_object done
    have inMembers : ∀ member ∈ members, ∃ form, member.2.toStructural = .ok form := by
      intro member inside
      obtain ⟨node, among, cuts, _, inner⟩ := derived.origin inside
      exact inProperties _ among inner
    obtain ⟨forms, each⟩ := exists_toStructuralEach inMembers
    cases shapes with
    | none | unconstrained => exact ⟨_, by simp only [SchemaNode.toStructural, each]; rfl⟩
    | shaped result =>
      obtain ⟨shape, cuts, rfl, inner⟩ := Expands.shape_origin inShape
      obtain ⟨form, formed⟩ := inValues _ rfl inner
      cases untyped : result.isUntyped <;>
        exact ⟨_, by simp only [SchemaNode.toStructural, each, formed, untyped]; rfl⟩
  | array stack items annotations inItems =>
    obtain ⟨results, rfl, inItem⟩ := expandAfresh_array done
    cases inItem with
    | none => exact ⟨_, rfl⟩
    | some inner =>
      obtain ⟨form, formed⟩ := inItems _ rfl inner
      exact ⟨.array (some form) annotations, by simp only [SchemaNode.toStructural, formed]; rfl⟩
  | scalar stack kind annotations =>
    rw [expandAfresh_scalar] at done
    obtain ⟨rfl, rfl⟩ := Prod.mk.inj (Except.ok.inj done)
    exact ⟨_, rfl⟩
  | reference stack name inTarget =>
    obtain ⟨target, found, ⟨_, rfl, rfl⟩ | ⟨closed, done⟩⟩ := expandAfresh_reference done
    · exact ⟨_, rfl⟩
    · exact inTarget target found closed done

end Expansion

/-- What a tree is flattened to has a structural form, and pruning by it keeps every field that pruning along the
tree keeps, with what is kept below. Both are the same unless some recursion is cut off. -/
theorem prune_flatten {kind version : String} {flat : Flattened} (flattens : tree.flatten kind version = .ok flat) :
    ∃ root form, tree.get? flat.root = some root ∧ flat.node.toStructural = .ok form ∧ ∀ value : Json,
      (∀ path, (tree.prune root value).has path = true → (form.prune value).has path = true) ∧
      tree.prune root (form.prune value) = tree.prune root value ∧
      (flat.cycles = [] → form.prune value = tree.prune root value) := by
  obtain ⟨root, found, done⟩ := flatten_eq_ok flattens
  obtain ⟨form, formed⟩ := exists_toStructural done
  refine ⟨root, form, found, formed, fun value => ?_⟩
  have admits (path : Path) : form.admits path = empty.keeps flat.node path := admits_toStructural formed path
  have again : tree.prune root (form.prune value) = tree.prune root value := by
    rw [prune_eq_retain, prune_eq_retain, StructuralNode.prune_eq_retain]
    refine Json.retain_retain_of_le (fun path kept => ?_) value
    rw [admits]
    exact (keeps_expandAfresh done path).1 kept
  refine ⟨fun path kept => ?_, again, fun uncut => ?_⟩
  · rw [← again, prune_eq_retain, Json.has_retain, Bool.and_eq_true] at kept
    exact kept.1
  · have same : form.admits = tree.keeps root :=
      funext fun path => (admits path).trans ((keeps_expandAfresh done path).2 uncut)
    rw [prune_eq_retain, StructuralNode.prune_eq_retain, same]

/-- A folder has entries under any name, and an entry may have a folder as its content. -/
def diskTree : SchemaTree :=
  ⟨[("Disk", .object [("spec", .reference "Folder")] .none ⟨[], false, .empty⟩),
    ("Entry", .object [("content", .reference "Folder"), ("owner", .scalar (some .string) .empty)] .none
      ⟨[], false, .empty⟩),
    ("Folder", .object [] (.shaped (.reference "Entry")) ⟨[], false, .empty⟩)]⟩

def diskFlat : Flattened where
  root := "Disk"
  node := .object
    [("spec", .object []
      (.shaped (.object [("content", .openMap), ("owner", .scalar (some .string) .empty)] .none ⟨[], false, .empty⟩))
      ⟨[], false, .empty⟩)]
    .none ⟨[], false, .empty⟩
  cycles := ["Folder"]

theorem flatten_disk : diskTree.flatten "Disk" "v1" = .ok diskFlat := by cbv

theorem prune_flatten_disk :
    diskTree.flatten "Disk" "v1" = .ok diskFlat ∧
    ∃ root form, diskTree.get? diskFlat.root = some root ∧ diskFlat.node.toStructural = .ok form ∧ ∀ value : Json,
      (∀ path, (diskTree.prune root value).has path = true → (form.prune value).has path = true) ∧
      diskTree.prune root (form.prune value) = diskTree.prune root value ∧
      (diskFlat.cycles = [] → form.prune value = diskTree.prune root value) :=
  ⟨flatten_disk, prune_flatten flatten_disk⟩

/-- Folders lie in folders as deep as the value goes, and what no entry declares is dropped in all of them. -/
example :
    diskTree.prune (.reference "Disk")
      (.object [("spec", .object [("a", .object [("content", .object [("b", .object [("size", .null)])])])])]) =
      .object [("spec", .object [("a", .object [("content", .object [("b", .object [])])])])] := by cbv

end SchemaTree

end ResourceKinds
