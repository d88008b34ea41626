import ResourceKinds.Proofs.Schema.Pruning

namespace ResourceKinds

open Json (Path)

namespace Json

/-- The same value as far as it can be seen without going inside: a list of as many items, an object with some
of the names in their order, or exactly the same. -/
inductive Resembles : Json → Json → Prop
  | leaf {value : Json} (noItems : value.asArray? = none) (noMembers : value.asObject? = none) : Resembles value value
  | list {items others : List Json} (length : others.length = items.length) :
      Resembles (.array items) (.array others)
  | object {members others : Fields Json} (names : (Table.keys others).Sublist (Table.keys members)) :
      Resembles (.object members) (.object others)

theorem length_retainItems (keep : Path → Bool) (start : Nat) (items : List Json) :
    (retainItems keep start items).length = items.length := by
  induction items generalizing start with
  | nil => rfl
  | cons item rest ih => simp only [retainItems, List.length_cons, ih]

theorem resembles_retain (keep : Path → Bool) (value : Json) : value.Resembles (value.retain keep) := by
  cases value with
  | array items =>
    rw [retain]
    exact .list (length_retainItems keep 0 items)
  | object members =>
    rw [retain]
    refine .object ?_
    rw [keys_retainMembers]
    exact List.filter_sublist
  | _ =>
    rw [retain]
    · exact .leaf rfl rfl
    all_goals simp

theorem keepsWay_const (keep : Bool) (path : Path) : (keep && keepsWay (fun _ => keep) path) = keep := by
  cases keep with
  | false => rfl
  | true =>
    rw [Bool.true_and]
    induction path with
    | nil => rfl
    | cons step rest ih => cases step <;> simp only [keepsWay, Bool.true_and, ih]

end Json

namespace StructuralNode

/-- The node that reads what a step leads to. There is none where the schema says nothing of it. -/
def next? : StructuralNode → Json.Step → Option StructuralNode
  | .object properties values _, .member name => memberNode? properties values name
  | .array items _, .item _ => items
  | _, _ => none

/-- The node that reads the value at a place, unless the way there leaves the schema. -/
def reader? (node : StructuralNode) : Path → Option StructuralNode
  | [] => some node
  | step :: rest => (node.next? step).bind (·.reader? rest)

/-- Every name on the path that is read at an object without a map shape and without the mark of an open one is
declared there. -/
def Declares (node : StructuralNode) (path : Path) : Prop :=
  ∀ before name after properties facets, path = before ++ .member name :: after →
    node.reader? before = some (.object properties none facets) → facets.preserve = false →
    name ∈ Table.keys properties

/-- The first name on a path is declared or need not be. -/
def DeclaresFirst (node : StructuralNode) (step : Json.Step) : Prop :=
  ∀ name properties facets, step = .member name → node = .object properties none facets →
    facets.preserve = false → name ∈ Table.keys properties

variable {node next : StructuralNode} {step : Json.Step}

theorem declares_nil (node : StructuralNode) : node.Declares [] := by
  intro before name after properties facets same
  simp at same

theorem declares_cons {rest : Path} : node.Declares (step :: rest) ↔
    node.DeclaresFirst step ∧ ∀ next, node.next? step = some next → next.Declares rest := by
  constructor
  · intro declares
    constructor
    · rintro name properties facets rfl rfl closed
      exact declares [] name rest properties facets rfl rfl closed
    · rintro next found before name after properties facets rfl reads closed
      refine declares (step :: before) name after properties facets rfl ?_ closed
      rw [reader?, found]
      exact reads
  · rintro ⟨first, later⟩ before name after properties facets same reads closed
    cases before with
    | nil =>
      obtain ⟨rfl, rfl⟩ := List.cons.inj same
      exact first name properties facets rfl (Option.some.inj reads) closed
    | cons other before =>
      obtain ⟨rfl, rfl⟩ := List.cons.inj same
      obtain ⟨next, found, reads⟩ := Option.bind_eq_some_iff.mp reads
      exact later next found before name after properties facets rfl reads closed

theorem admits_of_next (found : node.next? step = some next) (rest : Path) :
    node.admits (step :: rest) = next.admits rest := by
  cases node with
  | object properties values facets =>
    cases step with
    | member name =>
      have governed : memberNode? properties values name = some next := found
      simp only [admits, governed]
    | item position => cases found
  | array items annotations =>
    cases step with
    | member name => cases found
    | item position =>
      obtain rfl : items = some next := found
      rfl
  | scalar kind annotations => cases step <;> cases found

/-- Where a step leaves the schema, it alone decides about all that lies beyond. -/
theorem admits_of_leaving (leaves : node.next? step = none) (rest : Path) :
    node.admits (step :: rest) = node.admits [step] := by
  cases node with
  | object properties values facets =>
    cases step with
    | member name =>
      have governed : memberNode? properties values name = none := leaves
      simp only [admits, governed]
    | item position => rfl
  | array items annotations =>
    cases step with
    | member name => rfl
    | item position =>
      obtain rfl : items = none := leaves
      rfl
  | scalar kind annotations => cases step <;> rfl

theorem admits_leaving_iff (leaves : node.next? step = none) : node.admits [step] = true ↔ node.DeclaresFirst step := by
  cases node with
  | object properties values facets =>
    cases step with
    | member name =>
      have governed : memberNode? properties values name = none := leaves
      obtain ⟨undeclared, rfl⟩ := Option.or_eq_none_iff.mp governed
      simp only [admits, governed]
      constructor
      · rintro opened _ _ _ _ ⟨⟩ closed
        rw [opened] at closed
        cases closed
      · intro first
        refine Decidable.byContradiction fun closed => ?_
        have declared := first name properties facets rfl rfl (by simpa using closed)
        exact Table.lookup_eq_none.mp undeclared declared
    | item position =>
      refine ⟨fun _ => ?_, fun _ => rfl⟩
      rintro _ _ _ ⟨⟩
  | array items annotations =>
    refine ⟨fun _ => ?_, fun _ => ?_⟩
    · rintro _ _ _ _ ⟨⟩
    · cases step with
      | member name => rfl
      | item position =>
        obtain rfl : items = none := leaves
        rfl
  | scalar kind annotations =>
    refine ⟨fun _ => ?_, fun _ => ?_⟩
    · rintro _ _ _ _ ⟨⟩
    · cases step <;> rfl

theorem declaresFirst_of_next (found : node.next? step = some next) : node.DeclaresFirst step := by
  rintro name properties facets rfl rfl _
  have declared : (Table.lookup properties name).or none = some next := found
  rw [Option.or_none] at declared
  exact List.mem_map_of_mem (Table.mem_of_lookup declared)

theorem keepsWay_admits_cons (rest : Path) : Json.keepsWay node.admits (step :: rest) =
    (node.admits [step] && Json.keepsWay (fun path => node.admits (step :: path)) rest) := by
  cases step with
  | member name => rfl
  | item position =>
    have always : node.admits [.item position] = true := by
      cases node with
      | array items annotations => cases items <;> rfl
      | object properties values facets => rfl
      | scalar kind annotations => rfl
    rw [always, Bool.true_and]
    rfl

/-- All that lies on the way to a place is admitted just if every name is declared that has to be. -/
theorem keepsWay_admits_iff (node : StructuralNode) (path : Path) :
    Json.keepsWay node.admits path = true ↔ node.Declares path := by
  induction path generalizing node with
  | nil => exact ⟨fun _ => node.declares_nil, fun _ => rfl⟩
  | cons step rest ih =>
    rw [keepsWay_admits_cons, declares_cons]
    cases found : node.next? step with
    | some next =>
      have onward : (fun path => node.admits (step :: path)) = next.admits := funext (admits_of_next found)
      have here : node.admits [step] = true := admits_of_next found []
      have first := declaresFirst_of_next found
      simp only [here, onward, Bool.true_and, ih, first, true_and, Option.some.injEq, forall_eq']
    | none =>
      have beyond : (fun path => node.admits (step :: path)) = fun _ => node.admits [step] :=
        funext (admits_of_leaving found)
      rw [beyond, Json.keepsWay_const, admits_leaving_iff found]
      simp

/-- A place of a value is there after pruning just if every name on the way to it is declared that has to be. What
is at a place that stays is what was there: leaves are the same, and lists have as many items. -/
theorem places_prune (node : StructuralNode) (value : Json) :
    (∀ path, (node.prune value).has path = true ↔ value.has path = true ∧ node.Declares path) ∧
      ∀ path part, (node.prune value).at? path = some part →
        ∃ whole, value.at? path = some whole ∧ whole.Resembles part := by
  rw [prune_eq_retain]
  constructor
  · intro path
    rw [Json.has_retain, Bool.and_eq_true, keepsWay_admits_iff]
  · intro path part found
    rw [Json.at?_retain] at found
    split at found
    · obtain ⟨whole, there, rfl⟩ := Option.map_eq_some_iff.mp found
      exact ⟨whole, there, Json.resembles_retain _ whole⟩
    · cases found

end StructuralNode

end ResourceKinds
