import Mathlib.Data.List.Perm.Subperm
import Mathlib.Logic.Relation
import ResourceKinds.Proofs.Schema.ExpansionMemo

namespace ResourceKinds

namespace SchemaNode

mutual

/-- How many nodes the longest way down into a node has. A reference is not followed. -/
def height : SchemaNode → Nat
  | .object properties .none _ => heightOf properties + 1
  | .object properties .unconstrained _ => heightOf properties + 1
  | .object properties (.shaped node) _ => max (heightOf properties) node.height + 1
  | .array (some items) _ => items.height + 1
  | .array none _ => 1
  | .scalar _ _ => 1
  | .reference _ => 1

def heightOf : List (String × SchemaNode) → Nat
  | [] => 0
  | (_, node) :: rest => max node.height (heightOf rest)

end

theorem height_le_heightOf {nodes : List (String × SchemaNode)} {member : String × SchemaNode}
    (inside : member ∈ nodes) : member.2.height ≤ heightOf nodes := by
  induction nodes with
  | nil => cases inside
  | cons head rest ih =>
    obtain ⟨key, node⟩ := head
    simp only [heightOf]
    rcases List.mem_cons.mp inside with rfl | later
    · exact Nat.le_max_left ..
    · exact Nat.le_trans (ih later) (Nat.le_max_right ..)

theorem heightOf_lt_object (properties : List (String × SchemaNode)) (values : MapValues SchemaNode)
    (facets : ObjectFacets) : heightOf properties < (SchemaNode.object properties values facets).height := by
  cases values <;> simp only [height] <;> omega

theorem height_pos (node : SchemaNode) : 0 < node.height := by
  cases node with
  | object properties values facets => exact Nat.zero_lt_of_lt (heightOf_lt_object properties values facets)
  | array items annotations => cases items <;> simp [height]
  | scalar | reference => simp [height]

end SchemaNode

/-- A call of the expansion: the components under expansion, the node, and what is known by then. -/
structure ExpansionCall where
  stack : List String
  node : SchemaNode
  state : ExpansionState

namespace SchemaTree

/-- The calls that a call makes in turn, each with what is known when it is made: of the properties of an object and
then of its map shape, of the items of an array, and of a component that is neither open nor finished. -/
inductive Calls (tree : SchemaTree) : ExpansionCall → ExpansionCall → Prop
  | property {stack before name node after values facets state members reached}
      (earlier : tree.expandEach stack before state = .ok (members, reached)) :
      Calls tree ⟨stack, .object (before ++ (name, node) :: after) values facets, state⟩ ⟨stack, node, reached⟩
  | shape {stack properties node facets state members reached}
      (earlier : tree.expandEach stack properties state = .ok (members, reached)) :
      Calls tree ⟨stack, .object properties (.shaped node) facets, state⟩ ⟨stack, node, reached⟩
  | item {stack node annotations state} :
      Calls tree ⟨stack, .array (some node) annotations, state⟩ ⟨stack, node, state⟩
  | component {stack name target state} (found : tree.get? name = some target) (closed : name ∉ stack)
      (unknown : state.done.lookup name = none) :
      Calls tree ⟨stack, .reference name, state⟩ ⟨name :: stack, target, state⟩

/-- The height of the highest component. -/
def height (tree : SchemaTree) : Nat := SchemaNode.heightOf tree.components

/-- A bound on the depth of the calls below a call. -/
def rank (tree : SchemaTree) (call : ExpansionCall) : Nat :=
  call.node.height + tree.unopened call.stack * tree.height

variable {tree : SchemaTree} {caller callee : ExpansionCall}

/-- A call goes into a part of its node, or opens a component of the tree that is not open. -/
theorem Calls.descends (calls : tree.Calls caller callee) :
    callee.stack = caller.stack ∧ callee.node.height < caller.node.height ∨
      ∃ name ∉ caller.stack, tree.get? name = some callee.node ∧ callee.stack = name :: caller.stack := by
  cases calls with
  | @property stack before name node after values facets state members reached earlier =>
    have inside : (name, node) ∈ before ++ (name, node) :: after := by simp
    exact .inl ⟨rfl, Nat.lt_of_le_of_lt (SchemaNode.height_le_heightOf inside) (SchemaNode.heightOf_lt_object ..)⟩
  | shape earlier =>
    refine .inl ⟨rfl, ?_⟩
    simp only [SchemaNode.height]
    omega
  | item =>
    refine .inl ⟨rfl, ?_⟩
    simp only [SchemaNode.height]
    omega
  | component found closed unknown => exact .inr ⟨_, closed, found, rfl⟩

/-- A node that is called may be higher than the caller, but not by more than there is for each component still to
open. -/
theorem Calls.rank_lt (calls : tree.Calls caller callee) : tree.rank callee < tree.rank caller := by
  unfold rank
  obtain ⟨same, lower⟩ | ⟨name, closed, found, opens⟩ := calls.descends
  · rw [same]
    omega
  · have fewer : tree.unopened callee.stack + 1 ≤ tree.unopened caller.stack := opens ▸ unopened_cons_lt found closed
    have bound : callee.node.height ≤ tree.height := SchemaNode.height_le_heightOf (Table.mem_of_lookup found)
    have positive := caller.node.height_pos
    have room := Nat.mul_le_mul_right tree.height fewer
    rw [Nat.succ_mul] at room
    omega

theorem rank_le (tree : SchemaTree) (call : ExpansionCall) :
    tree.rank call ≤ call.node.height + tree.names.length * tree.height :=
  Nat.add_le_add_left (Nat.mul_le_mul_right _ (List.length_filter_le ..)) _

theorem wellFounded_calls (tree : SchemaTree) : WellFounded fun callee caller => tree.Calls caller callee :=
  Subrelation.wf Calls.rank_lt (measure tree.rank).wf

/-- No component is open twice, and all that are open, the entry apart, are components of the tree. -/
structure OpensOnce (tree : SchemaTree) (entry : String) (stack : List String) : Prop where
  distinct : stack.Nodup
  among : stack ⊆ entry :: tree.names

namespace OpensOnce

variable {entry : String} {stack : List String}

theorem start (entry : String) : tree.OpensOnce entry [entry] :=
  ⟨List.pairwise_singleton .., List.cons_subset_cons entry (List.nil_subset _)⟩

theorem length_le (once : tree.OpensOnce entry stack) : stack.length ≤ tree.names.length + 1 :=
  (List.Nodup.subperm once.distinct once.among).length_le

theorem calls (once : tree.OpensOnce entry caller.stack) (calls : tree.Calls caller callee) :
    tree.OpensOnce entry callee.stack := by
  obtain ⟨same, _⟩ | ⟨name, closed, found, opens⟩ := calls.descends
  · rwa [same]
  · rw [opens]
    exact ⟨List.nodup_cons.mpr ⟨closed, once.distinct⟩,
      List.cons_subset.mpr ⟨List.mem_cons_of_mem _ (mem_names_of_get? found), once.among⟩⟩

/-- Whatever a call leads to, in however many steps, opens no component twice. -/
theorem reached (once : tree.OpensOnce entry caller.stack) (reached : Relation.ReflTransGen tree.Calls caller callee) :
    tree.OpensOnce entry callee.stack := by
  induction reached with
  | refl => exact once
  | tail _ last ih => exact ih.calls last

end OpensOnce

section Machine

/-- Computations that may end in an error, or without an answer. -/
abbrev Bounded := ExceptT SchemaError Option

/-- Expansion of nodes one after the other, where the expansion of each of them is left to be given. -/
def expandEachBy (recurse : SchemaNode → ExpansionState → Bounded (SchemaNode × ExpansionState)) :
    List (String × SchemaNode) → ExpansionState → Bounded (List (String × SchemaNode) × ExpansionState)
  | [], state => return ([], state)
  | (name, node) :: rest, state => do
    let (node, state) ← recurse node state
    let (rest, state) ← expandEachBy recurse rest state
    return ((name, node) :: rest, state)

/-- One call of the expansion, where the calls that it makes in turn are left to be given. -/
def expandBy (tree : SchemaTree) (recurse : ExpansionCall → Bounded (SchemaNode × ExpansionState)) :
    ExpansionCall → Bounded (SchemaNode × ExpansionState)
  | ⟨stack, .reference name, state⟩ => match tree.get? name with
    | none => throw (.unresolvedReference name)
    | some target =>
      if name ∈ stack then return (.openMap, ⟨state.cycles ++ [name], state.done⟩)
      else match state.done.lookup name with
      | some expanded => return (expanded, state)
      | none => do
        let (expanded, after) ← recurse ⟨name :: stack, target, state⟩
        if after.cycles.length = state.cycles.length then
          return (expanded, ⟨after.cycles, after.done.insert name expanded⟩)
        else return (expanded, after)
  | ⟨stack, .object properties values facets, state⟩ => do
    let (properties, state) ← expandEachBy (fun node state => recurse ⟨stack, node, state⟩) properties state
    match values with
    | .shaped node => do
      let (node, state) ← recurse ⟨stack, node, state⟩
      return (.object properties (.shaped node) facets, state)
    | .none => return (.object properties .none facets, state)
    | .unconstrained => return (.object properties .unconstrained facets, state)
  | ⟨stack, .array (some node) annotations, state⟩ => do
    let (node, state) ← recurse ⟨stack, node, state⟩
    return (.array (some node) annotations, state)
  | ⟨_, .array none annotations, state⟩ => return (.array none annotations, state)
  | ⟨_, .scalar kind annotations, state⟩ => return (.scalar kind annotations, state)

/-- Expansion on a machine that knows no measure, and has room for so many open components and for calls so deep. It
ends without an answer as soon as one of the two does not suffice, or a component is opened that is open. -/
def expandWithin (tree : SchemaTree) (room : Nat) : Nat → ExpansionCall → Bounded (SchemaNode × ExpansionState)
  | 0, _ => ExceptT.mk none
  | depth + 1, call =>
    if call.stack.Nodup ∧ call.stack.length ≤ room then tree.expandBy (tree.expandWithin room depth) call
    else ExceptT.mk none

variable {α β : Type} {recurse : ExpansionCall → Bounded (SchemaNode × ExpansionState)} {stack : List String}
  {state : ExpansionState}

/-- A sequence comes to the answer that it should come to if both of its parts do. -/
theorem run_bind_eq_some {first : Bounded α} {answer : Except SchemaError α} {next : α → Bounded β}
    {following : α → Except SchemaError β} (ran : first.run = some answer)
    (rest : ∀ value, answer = .ok value → (next value).run = some (following value)) :
    (first >>= next).run = some (answer >>= following) := by
  rw [ExceptT.run_bind, ran]
  cases answer with
  | error error => rfl
  | ok value => exact rest value rfl

/-- Properties are expanded as they should be if each of them is, with what is known when its turn comes. -/
theorem expandEachBy_eq {nodes : List (String × SchemaNode)}
    (parts : ∀ before name node after members reached, nodes = before ++ (name, node) :: after →
      tree.expandEach stack before state = .ok (members, reached) →
      (recurse ⟨stack, node, reached⟩).run = some (tree.expand stack node reached)) :
    (expandEachBy (fun node state => recurse ⟨stack, node, state⟩) nodes state).run =
      some (tree.expandEach stack nodes state) := by
  induction nodes generalizing state with
  | nil =>
    simp only [expandEachBy, expandEach]
    rfl
  | cons head rest ih =>
    obtain ⟨name, node⟩ := head
    have first := parts [] name node rest [] state rfl (by simp only [expandEach])
    rw [expandEachBy, expandEach]
    refine run_bind_eq_some first fun result expanded => ?_
    have later : (expandEachBy (fun node state => recurse ⟨stack, node, state⟩) rest result.2).run =
        some (tree.expandEach stack rest result.2) := by
      refine ih fun before key other after members last whole earlier => ?_
      refine parts ((name, node) :: before) key other after ((name, result.1) :: members) last (congrArg _ whole) ?_
      simp only [expandEach, expanded, earlier, bind, Except.bind, pure, Except.pure]
    exact run_bind_eq_some later fun _ _ => rfl

/-- A call comes to the answer that it should come to if the calls that it makes in turn do. -/
theorem expandBy_eq {call : ExpansionCall} (parts : ∀ callee, tree.Calls call callee →
      (recurse callee).run = some (tree.expand callee.stack callee.node callee.state)) :
    (tree.expandBy recurse call).run = some (tree.expand call.stack call.node call.state) := by
  obtain ⟨stack, node, state⟩ := call
  cases node with
  | object properties values facets =>
    have members : (expandEachBy (fun node state => recurse ⟨stack, node, state⟩) properties state).run =
        some (tree.expandEach stack properties state) := by
      refine expandEachBy_eq fun before name node after members reached whole earlier => ?_
      subst whole
      exact parts _ (.property earlier)
    rw [expandBy, expand]
    refine run_bind_eq_some members fun result earlier => ?_
    cases values with
    | none | unconstrained =>
      simp only [expandValues]
      rfl
    | shaped shape =>
      have inShape := parts _ (.shape earlier)
      simp only [expandValues, bind_assoc, pure_bind]
      exact run_bind_eq_some inShape fun _ _ => rfl
  | array items annotations =>
    cases items with
    | none =>
      simp only [expandBy, expand, expandItems]
      rfl
    | some item =>
      have inItem := parts _ .item
      simp only [expandBy, expand, expandItems, bind_assoc, pure_bind]
      exact run_bind_eq_some inItem fun _ _ => rfl
  | scalar kind annotations =>
    simp only [expandBy, expand]
    rfl
  | reference name =>
    cases found : tree.get? name with
    | none =>
      simp only [expandBy, found, expand_dangling found]
      rfl
    | some target =>
      by_cases opened : name ∈ stack
      · simp only [expandBy, found, if_pos opened, expand_opened found opened]
        rfl
      · cases known : state.done.lookup name with
        | some expanded =>
          simp only [expandBy, found, if_neg opened, known, expand_kept found opened known]
          rfl
        | none =>
          have inTarget := parts _ (.component found opened known)
          simp only [expandBy, found, if_neg opened, known, expand_open found opened known]
          refine run_bind_eq_some inTarget fun result _ => ?_
          split <;> rfl

/-- A machine with room for all components, and for calls as deep as the rank, comes to the answer. -/
theorem expandWithin_eq {entry : String} {depth : Nat} {call : ExpansionCall} (once : tree.OpensOnce entry call.stack)
    (deep : tree.rank call ≤ depth) : (tree.expandWithin (tree.names.length + 1) depth call).run =
      some (tree.expand call.stack call.node call.state) := by
  induction depth generalizing call with
  | zero =>
    have positive := call.node.height_pos
    unfold rank at deep
    omega
  | succ depth ih =>
    rw [expandWithin, if_pos ⟨once.distinct, once.length_le⟩]
    refine expandBy_eq fun callee calls => ih (once.calls calls) ?_
    have lower := calls.rank_lt
    omega

end Machine

/-- The calls of an expansion come to an end, however the components refer to each other: each call goes into a part of
its node or opens a component that is not open. So no component is open twice, at most all components and the entry
are open at once, and a machine with room for that many, whose calls go as deep as all components one below the other
are high, comes to the answer of the expansion. -/
theorem expansion_within (tree : SchemaTree) :
    (WellFounded fun callee caller => tree.Calls caller callee) ∧
    (∀ caller callee, tree.Calls caller callee →
      callee.stack = caller.stack ∧ callee.node.height < caller.node.height ∨
        ∃ name ∈ tree.names, name ∉ caller.stack ∧ tree.get? name = some callee.node ∧
          callee.stack = name :: caller.stack) ∧
    ∀ entry node state,
      (∀ call, Relation.ReflTransGen tree.Calls ⟨[entry], node, state⟩ call →
        call.stack.Nodup ∧ call.stack.length ≤ tree.names.length + 1) ∧
      ∀ depth, node.height + tree.names.length * tree.height ≤ depth →
        (tree.expandWithin (tree.names.length + 1) depth ⟨[entry], node, state⟩).run =
          some (tree.expand [entry] node state) := by
  refine ⟨tree.wellFounded_calls, fun caller callee calls => ?_, fun entry node state => ⟨fun call reached => ?_,
    fun depth deep => ?_⟩⟩
  · obtain inside | ⟨name, closed, found, opens⟩ := calls.descends
    · exact .inl inside
    · exact .inr ⟨name, mem_names_of_get? found, closed, found, opens⟩
  · have once := (OpensOnce.start entry).reached reached
    exact ⟨once.distinct, once.length_le⟩
  · exact expandWithin_eq (OpensOnce.start entry) (Nat.le_trans (tree.rank_le _) deep)

end SchemaTree

end ResourceKinds
