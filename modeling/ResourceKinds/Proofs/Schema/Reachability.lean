import ResourceKinds.Proofs.Schema.ExpansionMemo

namespace ResourceKinds.SchemaTree

variable {tree : SchemaTree} {stack : List String}

/-- A reference leads to the component that it names and, past components that are not open, to those that its
target leads to. -/
inductive Leads (tree : SchemaTree) (stack : List String) : String → String → Prop
  | here {name} : Leads tree stack name name
  | past {name target middle last} : name ∉ stack → tree.get? name = some target → middle ∈ target.references →
      Leads tree stack middle last → Leads tree stack name last

theorem Refers.exists_leads {node : SchemaNode} {name : String} (refers : tree.Refers node name) :
    ∃ first ∈ node.references, tree.Leads [] first name := by
  induction refers with
  | names named => exact ⟨_, named, .here⟩
  | through named found _ ih =>
    obtain ⟨first, inside, leads⟩ := ih
    exact ⟨_, named, .past List.not_mem_nil found inside leads⟩

/-- What a reference leads to it leads to without a component, or else that component leads there without
coming back to itself. -/
theorem Leads.without {first last : String} (leads : tree.Leads stack first last) (opened : String) :
    tree.Leads (opened :: stack) first last ∨ ∃ target, tree.get? opened = some target ∧
      ∃ middle ∈ target.references, tree.Leads (opened :: stack) middle last := by
  induction leads with
  | here => exact .inl .here
  | @past name target middle last closed found inside _ ih =>
    rcases ih with without | through
    · by_cases same : name = opened
      · subst same
        exact .inr ⟨target, found, middle, inside, without⟩
      · exact .inl (.past (by simp [same, closed]) found inside without)
    · exact .inr through

section Success

variable {expanded : SchemaNode} {cycles : List String}

/-- A successful expansion has resolved all that its references lead to: what lies behind an open component is
looked at where that component was opened. -/
theorem resolved_of_expandAfresh {node : SchemaNode} (done : tree.expandAfresh stack node = .ok (expanded, cycles)) :
    ∀ first ∈ node.references, ∀ last, tree.Leads stack first last → ∃ target, tree.get? last = some target := by
  induction stack, node using expansion_induction tree generalizing expanded cycles with
  | object stack properties values facets inProperties inValues =>
    obtain ⟨members, shapes, _, derived, _, inShape⟩ := expandAfresh_object done
    intro first among
    rcases SchemaNode.mem_references_object.mp among with ⟨member, inside, named⟩ | ⟨shape, rfl, named⟩
    · obtain ⟨_, _, cuts, _, inner⟩ := derived.image inside
      exact inProperties member inside inner first named
    · generalize shapes.shape? = result at inShape
      cases inShape with
      | some expands =>
        obtain ⟨cuts, _, inner⟩ := expands
        exact inValues shape rfl inner first named
  | array stack items annotations inItems =>
    obtain ⟨results, _, inItem⟩ := expandAfresh_array done
    intro first among
    obtain ⟨item, rfl, named⟩ := SchemaNode.mem_references_array.mp among
    cases inItem with
    | some inner => exact inItems item rfl inner first named
  | scalar stack kind annotations => simp [SchemaNode.references]
  | reference stack name inTarget =>
    obtain ⟨target, found, ends⟩ := expandAfresh_reference done
    intro first named last leads
    obtain rfl : first = name := by simpa [SchemaNode.references] using named
    cases leads with
    | here => exact ⟨target, found⟩
    | @past _ again middle _ closed foundAgain inside later =>
      obtain rfl : target = again := Option.some.inj (found.symm.trans foundAgain)
      obtain ⟨opened, _⟩ | ⟨_, inner⟩ := ends
      · exact absurd opened closed
      · rcases later.without first with without | ⟨other, foundOther, middle, inside, without⟩
        · exact inTarget target found closed inner middle inside last without
        · obtain rfl : target = other := Option.some.inj (found.symm.trans foundOther)
          exact inTarget target found closed inner middle inside last without

/-- An expanded node has no reference left. -/
theorem references_of_expandAfresh {node : SchemaNode} (done : tree.expandAfresh stack node = .ok (expanded, cycles)) :
    expanded.references = [] := by
  induction stack, node using expansion_induction tree generalizing expanded cycles with
  | object stack properties values facets inProperties inValues =>
    obtain ⟨members, shapes, rfl, derived, _, inShape⟩ := expandAfresh_object done
    refine SchemaNode.references_object_eq_nil.mpr ⟨fun member inside => ?_, fun result same => ?_⟩
    · obtain ⟨node, among, cuts, _, inner⟩ := derived.origin inside
      exact inProperties _ among inner
    · subst same
      obtain ⟨shape, cuts, rfl, inner⟩ := Expands.shape_origin inShape
      exact inValues _ rfl inner
  | array stack items annotations inItems =>
    obtain ⟨results, rfl, inItem⟩ := expandAfresh_array done
    refine SchemaNode.references_array_eq_nil.mpr fun result same => ?_
    subst same
    cases inItem with
    | some inner => exact inItems _ rfl inner
  | scalar stack kind annotations =>
    rw [expandAfresh_scalar] at done
    obtain ⟨rfl, _⟩ := Prod.mk.inj (Except.ok.inj done)
    simp [SchemaNode.references]
  | reference stack name inTarget =>
    obtain ⟨target, found, ⟨_, rfl, _⟩ | ⟨closed, inner⟩⟩ := expandAfresh_reference done
    · simp [SchemaNode.openMap, SchemaNode.references, SchemaNode.referencesOf]
    · exact inTarget target found closed inner

end Success

section Cuts

variable {cycles : List String} {name : String}

theorem mem_cycles_expandEachAfresh {nodes results : List (String × SchemaNode)}
    (done : tree.expandEachAfresh stack nodes = .ok (results, cycles)) (cut : name ∈ cycles) :
    ∃ member ∈ nodes, ∃ expanded cuts, tree.expandAfresh stack member.2 = .ok (expanded, cuts) ∧ name ∈ cuts := by
  induction nodes generalizing results cycles with
  | nil =>
    simp only [expandEachAfresh, Except.ok.injEq, Prod.mk.injEq] at done
    obtain ⟨_, rfl⟩ := done
    cases cut
  | cons head rest ih =>
    obtain ⟨key, node⟩ := head
    simp only [expandEachAfresh, bind_eq_ok, pure, Except.pure, Except.ok.injEq, Prod.mk.injEq] at done
    obtain ⟨⟨result, early⟩, first, ⟨results, late⟩, second, _, rfl⟩ := done
    rcases List.mem_append.mp cut with here | later
    · exact ⟨(key, node), List.mem_cons_self .., result, early, first, here⟩
    · obtain ⟨member, inside, cutThere⟩ := ih second later
      exact ⟨member, List.mem_cons_of_mem _ inside, cutThere⟩

theorem mem_cycles_expandValuesAfresh {values shapes : MapValues SchemaNode}
    (done : tree.expandValuesAfresh stack values = .ok (shapes, cycles)) (cut : name ∈ cycles) :
    ∃ shape, values = .shaped shape ∧
      ∃ expanded cuts, tree.expandAfresh stack shape = .ok (expanded, cuts) ∧ name ∈ cuts := by
  cases values with
  | none | unconstrained =>
    simp only [expandValuesAfresh, Except.ok.injEq, Prod.mk.injEq] at done
    obtain ⟨_, rfl⟩ := done
    cases cut
  | shaped shape =>
    simp only [expandValuesAfresh, bind_eq_ok, pure, Except.pure, Except.ok.injEq, Prod.mk.injEq] at done
    obtain ⟨⟨result, cuts⟩, inner, _, rfl⟩ := done
    exact ⟨shape, rfl, result, cuts, inner, cut⟩

theorem mem_cycles_expandItemsAfresh {items results : Option SchemaNode}
    (done : tree.expandItemsAfresh stack items = .ok (results, cycles)) (cut : name ∈ cycles) :
    ∃ item, items = some item ∧
      ∃ expanded cuts, tree.expandAfresh stack item = .ok (expanded, cuts) ∧ name ∈ cuts := by
  cases items with
  | none =>
    simp only [expandItemsAfresh, Except.ok.injEq, Prod.mk.injEq] at done
    obtain ⟨_, rfl⟩ := done
    cases cut
  | some item =>
    simp only [expandItemsAfresh, bind_eq_ok, pure, Except.pure, Except.ok.injEq, Prod.mk.injEq] at done
    obtain ⟨⟨result, cuts⟩, inner, _, rfl⟩ := done
    exact ⟨item, rfl, result, cuts, inner, cut⟩

/-- What is cut off is referred to, and refers to itself. -/
theorem recurs_of_cut {node expanded : SchemaNode} (trail : tree.Trail stack node)
    (done : tree.expandAfresh stack node = .ok (expanded, cycles)) (cut : name ∈ cycles) :
    tree.Refers node name ∧ tree.Recurs name := by
  induction stack, node using expansion_induction tree generalizing expanded cycles with
  | object stack properties values facets inProperties inValues =>
    simp only [expandAfresh, bind_eq_ok, pure, Except.pure, Except.ok.injEq, Prod.mk.injEq] at done
    obtain ⟨⟨members, early⟩, first, ⟨shapes, late⟩, second, _, rfl⟩ := done
    rcases List.mem_append.mp cut with here | later
    · obtain ⟨member, inside, _, _, inner, cut⟩ := mem_cycles_expandEachAfresh first here
      obtain ⟨refers, recurs⟩ :=
        inProperties member inside (trail.mono fun _ further => further.of_property inside) inner cut
      exact ⟨refers.of_property inside, recurs⟩
    · obtain ⟨shape, rfl, _, _, inner, cut⟩ := mem_cycles_expandValuesAfresh second later
      obtain ⟨refers, recurs⟩ := inValues shape rfl (trail.mono fun _ further => further.of_shape) inner cut
      exact ⟨refers.of_shape, recurs⟩
  | array stack items annotations inItems =>
    simp only [expandAfresh, bind_eq_ok, pure, Except.pure, Except.ok.injEq, Prod.mk.injEq] at done
    obtain ⟨⟨results, cuts⟩, inside, _, rfl⟩ := done
    obtain ⟨item, rfl, _, _, inner, cut⟩ := mem_cycles_expandItemsAfresh inside cut
    obtain ⟨refers, recurs⟩ := inItems item rfl (trail.mono fun _ further => further.of_item) inner cut
    exact ⟨refers.of_item, recurs⟩
  | scalar stack kind annotations =>
    rw [expandAfresh_scalar] at done
    obtain ⟨_, rfl⟩ := Prod.mk.inj (Except.ok.inj done)
    cases cut
  | reference stack name inTarget =>
    obtain ⟨target, found, ⟨opened, _, rfl⟩ | ⟨closed, inner⟩⟩ := expandAfresh_reference done
    · obtain rfl := List.mem_singleton.mp cut
      exact ⟨refers_self _, trail.recurs opened (refers_self _)⟩
    · obtain ⟨refers, recurs⟩ := inTarget target found closed (trail.open found) inner cut
      exact ⟨refers.of_target found, recurs⟩

end Cuts

section Failure

variable {error : SchemaError}

theorem expandEachAfresh_eq_error {nodes : List (String × SchemaNode)}
    (failed : tree.expandEachAfresh stack nodes = .error error) :
    ∃ member ∈ nodes, tree.expandAfresh stack member.2 = .error error := by
  induction nodes with
  | nil =>
    rw [expandEachAfresh] at failed
    cases failed
  | cons head rest ih =>
    obtain ⟨key, node⟩ := head
    rw [expandEachAfresh] at failed
    rcases bind_eq_error.mp failed with here | ⟨first, _, failed⟩
    · exact ⟨(key, node), List.mem_cons_self .., here⟩
    · rcases bind_eq_error.mp failed with there | ⟨later, _, failed⟩
      · obtain ⟨member, inside, failedThere⟩ := ih there
        exact ⟨member, List.mem_cons_of_mem _ inside, failedThere⟩
      · cases failed

theorem expandValuesAfresh_eq_error {values : MapValues SchemaNode}
    (failed : tree.expandValuesAfresh stack values = .error error) :
    ∃ shape, values = .shaped shape ∧ tree.expandAfresh stack shape = .error error := by
  cases values with
  | none | unconstrained =>
    rw [expandValuesAfresh] at failed
    cases failed
  | shaped shape =>
    rw [expandValuesAfresh] at failed
    rcases bind_eq_error.mp failed with here | ⟨result, _, failed⟩
    · exact ⟨shape, rfl, here⟩
    · cases failed

theorem expandItemsAfresh_eq_error {items : Option SchemaNode}
    (failed : tree.expandItemsAfresh stack items = .error error) :
    ∃ item, items = some item ∧ tree.expandAfresh stack item = .error error := by
  cases items with
  | none =>
    rw [expandItemsAfresh] at failed
    cases failed
  | some item =>
    rw [expandItemsAfresh] at failed
    rcases bind_eq_error.mp failed with here | ⟨result, _, failed⟩
    · exact ⟨item, rfl, here⟩
    · cases failed

/-- An expansion fails only at a reference that it is led to and that dangles. -/
theorem dangling_of_expandAfresh {node : SchemaNode} (failed : tree.expandAfresh stack node = .error error) :
    ∃ name, tree.Refers node name ∧ tree.get? name = none ∧ error = .unresolvedReference name := by
  induction stack, node using expansion_induction tree with
  | object stack properties values facets inProperties inValues =>
    rw [expandAfresh] at failed
    rcases bind_eq_error.mp failed with first | ⟨members, _, failed⟩
    · obtain ⟨member, inside, failedThere⟩ := expandEachAfresh_eq_error first
      obtain ⟨name, refers, dangles⟩ := inProperties member inside failedThere
      exact ⟨name, refers.of_property inside, dangles⟩
    · rcases bind_eq_error.mp failed with second | ⟨shapes, _, failed⟩
      · obtain ⟨shape, rfl, failedThere⟩ := expandValuesAfresh_eq_error second
        obtain ⟨name, refers, dangles⟩ := inValues shape rfl failedThere
        exact ⟨name, refers.of_shape, dangles⟩
      · cases failed
  | array stack items annotations inItems =>
    rw [expandAfresh] at failed
    rcases bind_eq_error.mp failed with inside | ⟨results, _, failed⟩
    · obtain ⟨item, rfl, failedThere⟩ := expandItemsAfresh_eq_error inside
      obtain ⟨name, refers, dangles⟩ := inItems item rfl failedThere
      exact ⟨name, refers.of_item, dangles⟩
    · cases failed
  | scalar stack kind annotations =>
    rw [expandAfresh_scalar] at failed
    cases failed
  | reference stack name inTarget =>
    cases found : tree.get? name with
    | none =>
      rw [expandAfresh_dangling found] at failed
      exact ⟨name, refers_self name, found, (Except.error.inj failed).symm⟩
    | some target =>
      by_cases opened : name ∈ stack
      · rw [expandAfresh_opened found opened] at failed
        cases failed
      · rw [expandAfresh_open found opened] at failed
        obtain ⟨other, refers, dangles⟩ := inTarget target found opened failed
        exact ⟨other, refers.of_target found, dangles⟩

end Failure

section Root

variable {root : String} {node : SchemaNode} {kind version : String}

/-- The components that an expansion from the root comes by: the root, and all that it refers to. -/
def Reaches (tree : SchemaTree) (root name : String) : Prop :=
  name = root ∨ ∃ node, tree.get? root = some node ∧ tree.Refers node name

theorem mem_names_iff {name : String} : name ∈ tree.names ↔ ∃ node, tree.get? name = some node := by
  refine ⟨fun among => ?_, fun ⟨node, found⟩ => mem_names_of_get? found⟩
  cases found : tree.get? name with
  | some node => exact ⟨node, rfl⟩
  | none => exact absurd among (Table.lookup_eq_none.mp found)

theorem Refers.then {component name : String} {target : SchemaNode} (refers : tree.Refers node component)
    (found : tree.get? component = some target) (named : name ∈ target.references) : tree.Refers node name := by
  induction refers with
  | names first => exact .through first found (.names named)
  | through first foundFirst _ ih => exact .through first foundFirst (ih found)

/-- What a node refers to is named by it or by a component that it refers to. -/
theorem Refers.last {name : String} (refers : tree.Refers node name) : name ∈ node.references ∨
    ∃ component target, tree.Refers node component ∧ tree.get? component = some target ∧ name ∈ target.references := by
  induction refers with
  | names named => exact .inl named
  | @through _ middle target _ first found _ ih =>
    rcases ih with named | ⟨component, last, refers, foundLast, named⟩
    · exact .inr ⟨middle, target, .names first, found, named⟩
    · exact .inr ⟨component, last, .through first found refers, foundLast, named⟩

/-- The root refers to what the components that it reaches name. -/
theorem refers_iff (found : tree.get? root = some node) {name : String} : tree.Refers node name ↔
    ∃ component target, tree.Reaches root component ∧ tree.get? component = some target ∧
      name ∈ target.references := by
  constructor
  · intro refers
    rcases refers.last with named | ⟨component, target, refers, foundLast, named⟩
    · exact ⟨root, node, .inl rfl, found, named⟩
    · exact ⟨component, target, .inr ⟨node, found, refers⟩, foundLast, named⟩
  · rintro ⟨component, target, rfl | ⟨again, foundAgain, refers⟩, foundTarget, named⟩
    · obtain rfl : node = target := Option.some.inj (found.symm.trans foundTarget)
      exact .names named
    · obtain rfl : node = again := Option.some.inj (found.symm.trans foundAgain)
      exact refers.then foundTarget named

theorem exists_root (only : tree.roots = [root]) : ∃ node, tree.get? root = some node := by
  have among : root ∈ tree.roots := only ▸ List.mem_singleton_self root
  exact mem_names_iff.mp (List.mem_filter.mp among).1

/-- A tree with one root flattens to the expansion of the root. -/
theorem flatten_of_roots (only : tree.roots = [root]) (found : tree.get? root = some node) :
    tree.flatten kind version =
      (tree.expandAfresh [root] node).map fun outcome => ⟨root, outcome.1, outcome.2⟩ := by
  have after := expand_follows (Trail.root found) ⟨[], []⟩ Kept.empty
  simp only [flatten, only, found]
  cases plain : tree.expandAfresh [root] node with
  | error error =>
    rw [plain] at after
    simp only [Extends] at after
    rw [after]
    rfl
  | ok outcome =>
    rw [plain] at after
    obtain ⟨done, _, run⟩ := after
    rw [run]
    rfl

theorem roots_of_flatten {flat : Flattened} (flattens : tree.flatten kind version = .ok flat) :
    ∃ root, tree.roots = [root] := by
  unfold flatten at flattens
  split at flattens
  · cases flattens
  · exact ⟨_, ‹_›⟩
  · cases flattens

/-- The root expands just if all that it refers to is there. -/
theorem expands_iff (found : tree.get? root = some node) :
    (∃ outcome, tree.expandAfresh [root] node = .ok outcome) ↔ ∀ name, tree.Refers node name → name ∈ tree.names := by
  constructor
  · rintro ⟨⟨expanded, cycles⟩, done⟩ name refers
    obtain ⟨first, named, leads⟩ := refers.exists_leads
    rcases leads.without root with without | ⟨again, foundAgain, middle, inside, without⟩
    · exact mem_names_iff.mpr (resolved_of_expandAfresh done first named name without)
    · obtain rfl : node = again := Option.some.inj (found.symm.trans foundAgain)
      exact mem_names_iff.mpr (resolved_of_expandAfresh done middle inside name without)
  · intro resolved
    cases done : tree.expandAfresh [root] node with
    | ok outcome => exact ⟨outcome, rfl⟩
    | error error =>
      obtain ⟨name, refers, dangles, _⟩ := dangling_of_expandAfresh done
      obtain ⟨target, there⟩ := mem_names_iff.mp (resolved name refers)
      cases dangles.symm.trans there

/-- Nothing is cut off just if nothing that the root reaches recurs. -/
theorem cycles_eq_nil_iff {expanded : SchemaNode} {cycles : List String} (found : tree.get? root = some node)
    (done : tree.expandAfresh [root] node = .ok (expanded, cycles)) :
    cycles = [] ↔ ∀ component, tree.Reaches root component → ¬ tree.Recurs component := by
  constructor
  · rintro rfl component reached recurs
    have settled := expandAfresh_settled done
    rcases reached with rfl | ⟨again, foundAgain, refers⟩
    · obtain ⟨again, foundAgain, refers⟩ := recurs
      obtain rfl : node = again := Option.some.inj (found.symm.trans foundAgain)
      exact (settled component refers).1 (List.mem_singleton_self component)
    · obtain rfl : node = again := Option.some.inj (found.symm.trans foundAgain)
      exact (settled component refers).2 recurs
  · intro once
    refine List.eq_nil_iff_forall_not_mem.mpr fun name cut => ?_
    obtain ⟨refers, recurs⟩ := recurs_of_cut (Trail.root found) done cut
    exact once name (.inr ⟨node, found, refers⟩) recurs

end Root

/-- A tree flattens just if it has one root, and every reference in the root or in a component that the root
reaches names a component of the tree. Then no reference is left, and nothing is cut off just if no component that
the root reaches, itself included, refers to itself. With one root, it fails only at a reference that dangles. -/
theorem flattens_iff (tree : SchemaTree) (kind version : String) :
    ((∃ flat, tree.flatten kind version = .ok flat) ↔
      ∃ root, tree.roots = [root] ∧ ∀ component node, tree.Reaches root component →
        tree.get? component = some node → ∀ name ∈ node.references, name ∈ tree.names) ∧
    (∀ flat, tree.flatten kind version = .ok flat →
      tree.roots = [flat.root] ∧ flat.node.references = [] ∧
      (flat.cycles = [] ↔ ∀ component, tree.Reaches flat.root component → ¬ tree.Recurs component)) ∧
    ∀ root error, tree.roots = [root] → tree.flatten kind version = .error error →
      ∃ component node name, tree.Reaches root component ∧ tree.get? component = some node ∧
        name ∈ node.references ∧ name ∉ tree.names ∧ error = .unresolvedReference name := by
  refine ⟨⟨?_, ?_⟩, ?_, ?_⟩
  · rintro ⟨flat, flattens⟩
    obtain ⟨root, only⟩ := roots_of_flatten flattens
    obtain ⟨node, found⟩ := exists_root only
    rw [flatten_of_roots only found] at flattens
    obtain ⟨outcome, done, _⟩ := map_eq_ok.mp flattens
    refine ⟨root, only, fun component target reached foundTarget name named => ?_⟩
    exact (expands_iff found).mp ⟨outcome, done⟩ name ((refers_iff found).mpr ⟨_, _, reached, foundTarget, named⟩)
  · rintro ⟨root, only, resolved⟩
    obtain ⟨node, found⟩ := exists_root only
    obtain ⟨outcome, done⟩ := (expands_iff found).mpr fun name refers => by
      obtain ⟨component, target, reached, foundTarget, named⟩ := (refers_iff found).mp refers
      exact resolved component target reached foundTarget name named
    exact ⟨_, (flatten_of_roots only found).trans (congrArg _ done)⟩
  · intro flat flattens
    obtain ⟨root, only⟩ := roots_of_flatten flattens
    obtain ⟨node, found⟩ := exists_root only
    rw [flatten_of_roots only found] at flattens
    obtain ⟨⟨expanded, cycles⟩, done, rfl⟩ := map_eq_ok.mp flattens
    exact ⟨only, references_of_expandAfresh done, cycles_eq_nil_iff found done⟩
  · intro root error only failed
    obtain ⟨node, found⟩ := exists_root only
    rw [flatten_of_roots only found] at failed
    cases done : tree.expandAfresh [root] node with
    | ok outcome =>
      rw [done] at failed
      cases failed
    | error other =>
      rw [done] at failed
      obtain rfl : other = error := Except.error.inj failed
      obtain ⟨name, refers, dangles, same⟩ := dangling_of_expandAfresh done
      obtain ⟨component, target, reached, foundTarget, named⟩ := (refers_iff found).mp refers
      refine ⟨component, target, name, reached, foundTarget, named, fun among => ?_, same⟩
      obtain ⟨again, there⟩ := mem_names_iff.mp among
      cases dangles.symm.trans there

/-- A fleet of ships, whose crews have a ship in turn. Apart from them lie a buoy and an anchor that refer to each
other, and a chain that is missing. -/
def fleetTree : SchemaTree :=
  let node (properties : List (String × SchemaNode)) : SchemaNode := .object properties .none ⟨[], false, .empty⟩
  ⟨[("Anchor", node [("buoy", .reference "Buoy"), ("chain", .reference "Chain")]),
    ("Buoy", node [("anchor", .reference "Anchor")]),
    ("Crew", node [("ship", .reference "Ship")]),
    ("Fleet", node [("flagship", .reference "Ship"), ("spec", .reference "Crew")]),
    ("Ship", node [("crews", .array (some (.reference "Crew")) .empty)])]⟩

def fleetFlat : Flattened :=
  let node (properties : List (String × SchemaNode)) : SchemaNode := .object properties .none ⟨[], false, .empty⟩
  ⟨"Fleet", node [("flagship", node [("crews", .array (some (node [("ship", .openMap)])) .empty)]),
    ("spec", node [("ship", node [("crews", .array (some .openMap) .empty)])])], ["Ship", "Crew"]⟩

theorem flatten_fleet : fleetTree.flatten "Fleet" "v1" = .ok fleetFlat := by cbv

theorem flattens_iff_fleet :
    fleetTree.flatten "Fleet" "v1" = .ok fleetFlat ∧ "Chain" ∉ fleetTree.names ∧
    (∃ root, fleetTree.roots = [root] ∧ ∀ component node, fleetTree.Reaches root component →
      fleetTree.get? component = some node → ∀ name ∈ node.references, name ∈ fleetTree.names) ∧
    fleetFlat.node.references = [] ∧
    (fleetFlat.cycles = [] ↔ ∀ component, fleetTree.Reaches fleetFlat.root component → ¬ fleetTree.Recurs component) :=
  have all := flattens_iff fleetTree "Fleet" "v1"
  ⟨flatten_fleet, by decide, all.1.mp ⟨fleetFlat, flatten_fleet⟩, (all.2.1 fleetFlat flatten_fleet).2⟩

end ResourceKinds.SchemaTree
