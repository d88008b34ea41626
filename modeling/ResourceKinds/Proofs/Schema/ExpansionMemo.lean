import ResourceKinds.Proofs.Schema.PlainExpansion

namespace ResourceKinds.SchemaTree

variable {tree : SchemaTree} {α β γ : Type}

/-- What is kept of each component is what following its reference gives somewhere, without a cut. -/
def Kept (tree : SchemaTree) (done : Fields SchemaNode) : Prop :=
  ∀ name expanded, done.lookup name = some expanded →
    ∃ stack, tree.expandAfresh stack (.reference name) = .ok (expanded, [])

theorem Kept.empty : tree.Kept [] := by
  intro name expanded found
  simp [Table.lookup] at found

theorem Kept.insert {done : Fields SchemaNode} {stack : List String} {name : String} {expanded : SchemaNode}
    (kept : tree.Kept done) (fresh : tree.expandAfresh stack (.reference name) = .ok (expanded, [])) :
    tree.Kept (done.insert name expanded) := by
  intro other node found
  by_cases same : other = name
  · subst same
    rw [Table.lookup_insert_self] at found
    exact ⟨stack, by rw [fresh, Option.some.inj found]⟩
  · rw [Table.lookup_insert_of_ne done expanded same] at found
    exact kept other node found

/-- An outcome with a memory of finished components against one without it: the same error, or the
same result with the same cuts added to those met before. -/
def Extends (tree : SchemaTree) (state : ExpansionState) (outcome : Except SchemaError (α × ExpansionState)) :
    Except SchemaError (α × List String) → Prop
  | .error error => outcome = .error error
  | .ok (result, cycles) => ∃ done, tree.Kept done ∧ outcome = .ok (result, ⟨state.cycles ++ cycles, done⟩)

/-- A step with a memory does what the step without one does, whatever is kept when it is taken. -/
def Follows (tree : SchemaTree) (step : ExpansionState → Except SchemaError (α × ExpansionState))
    (plain : Except SchemaError (α × List String)) : Prop :=
  ∀ state, tree.Kept state.done → tree.Extends state (step state) plain

theorem Follows.pure (result : α) :
    tree.Follows (fun state => .ok (result, state)) (.ok (result, [])) := by
  intro state kept
  exact ⟨state.done, kept, by simp⟩

theorem Follows.map {step : ExpansionState → Except SchemaError (α × ExpansionState)}
    {plain : Except SchemaError (α × List String)} (follows : tree.Follows step plain) (change : α → β) :
    tree.Follows
      (fun state => do
        let (result, state) ← step state
        return (change result, state))
      (do
        let (result, cycles) ← plain
        return (change result, cycles)) := by
  intro state kept
  have after := follows state kept
  cases plain with
  | error error =>
    simp only [Extends] at after
    simp [Extends, after, bind, Except.bind]
  | ok result =>
    obtain ⟨done, kept, run⟩ := after
    exact ⟨done, kept, by simp [run, bind, Except.bind, Pure.pure, Except.pure]⟩

theorem Follows.both {first : ExpansionState → Except SchemaError (α × ExpansionState)}
    {second : ExpansionState → Except SchemaError (β × ExpansionState)}
    {plainFirst : Except SchemaError (α × List String)} {plainSecond : Except SchemaError (β × List String)}
    (early : tree.Follows first plainFirst) (late : tree.Follows second plainSecond) (join : α → β → γ) :
    tree.Follows
      (fun state => do
        let (a, state) ← first state
        let (b, state) ← second state
        return (join a b, state))
      (do
        let (a, early) ← plainFirst
        let (b, late) ← plainSecond
        return (join a b, early ++ late)) := by
  intro state kept
  have after := early state kept
  cases plainFirst with
  | error error =>
    simp only [Extends] at after
    simp [Extends, after, bind, Except.bind]
  | ok firstResult =>
    obtain ⟨done, kept, run⟩ := after
    have last := late ⟨state.cycles ++ firstResult.2, done⟩ kept
    cases plainSecond with
    | error error =>
      simp only [Extends] at last
      simp [Extends, run, last, bind, Except.bind]
    | ok secondResult =>
      obtain ⟨done, kept, rerun⟩ := last
      exact ⟨done, kept, by simp [run, rerun, bind, Except.bind, Pure.pure, Except.pure]⟩

variable {stack : List String} {state : ExpansionState}

theorem expand_dangling {name : String} (missing : tree.get? name = none) :
    tree.expand stack (.reference name) state = .error (.unresolvedReference name) := by
  rw [expand]
  split
  · rfl
  · rename_i found
    simp [missing] at found

theorem expand_of_get? {name : String} {target : SchemaNode} (found : tree.get? name = some target) :
    tree.expand stack (.reference name) state =
      if name ∈ stack then .ok (.openMap, ⟨state.cycles ++ [name], state.done⟩)
      else match state.done.lookup name with
      | some expanded => .ok (expanded, state)
      | none => do
        let (expanded, after) ← tree.expand (name :: stack) target state
        if after.cycles.length = state.cycles.length then
          return (expanded, ⟨after.cycles, after.done.insert name expanded⟩)
        else return (expanded, after) := by
  rw [expand]
  split
  · rename_i missing
    simp [found] at missing
  · rename_i other same
    obtain rfl : target = other := Option.some.inj (found.symm.trans same)
    rfl

theorem expand_opened {name : String} {target : SchemaNode} (found : tree.get? name = some target)
    (opened : name ∈ stack) :
    tree.expand stack (.reference name) state = .ok (.openMap, ⟨state.cycles ++ [name], state.done⟩) := by
  rw [expand_of_get? found, if_pos opened]

theorem expand_kept {name : String} {target expanded : SchemaNode} (found : tree.get? name = some target)
    (closed : name ∉ stack) (kept : state.done.lookup name = some expanded) :
    tree.expand stack (.reference name) state = .ok (expanded, state) := by
  rw [expand_of_get? found, if_neg closed, kept]

theorem expand_open {name : String} {target : SchemaNode} (found : tree.get? name = some target)
    (closed : name ∉ stack) (unknown : state.done.lookup name = none) :
    tree.expand stack (.reference name) state = do
      let (expanded, after) ← tree.expand (name :: stack) target state
      if after.cycles.length = state.cycles.length then
        return (expanded, ⟨after.cycles, after.done.insert name expanded⟩)
      else return (expanded, after) := by
  rw [expand_of_get? found, if_neg closed, unknown]

theorem expandEach_follows {nodes : List (String × SchemaNode)}
    (parts : ∀ member ∈ nodes, tree.Follows (tree.expand stack member.2) (tree.expandAfresh stack member.2)) :
    tree.Follows (tree.expandEach stack nodes) (tree.expandEachAfresh stack nodes) := by
  induction nodes with
  | nil =>
    intro state kept
    simpa only [expandEach, expandEachAfresh] using Follows.pure [] state kept
  | cons head rest ih =>
    obtain ⟨name, node⟩ := head
    have first := parts (name, node) (List.mem_cons_self ..)
    have later := ih fun member inside => parts member (List.mem_cons_of_mem _ inside)
    intro state kept
    simpa only [expandEach, expandEachAfresh] using
      first.both later (fun node rest => (name, node) :: rest) state kept

theorem expandValues_follows {values : MapValues SchemaNode}
    (parts : ∀ shape, values = .shaped shape → tree.Follows (tree.expand stack shape) (tree.expandAfresh stack shape)) :
    tree.Follows (tree.expandValues stack values) (tree.expandValuesAfresh stack values) := by
  intro state kept
  cases values with
  | none => simpa only [expandValues, expandValuesAfresh] using Follows.pure MapValues.none state kept
  | unconstrained => simpa only [expandValues, expandValuesAfresh] using Follows.pure MapValues.unconstrained state kept
  | shaped shape =>
    simpa only [expandValues, expandValuesAfresh] using (parts shape rfl).map MapValues.shaped state kept

theorem expandItems_follows {items : Option SchemaNode}
    (parts : ∀ item, items = some item → tree.Follows (tree.expand stack item) (tree.expandAfresh stack item)) :
    tree.Follows (tree.expandItems stack items) (tree.expandItemsAfresh stack items) := by
  intro state kept
  cases items with
  | none => simpa only [expandItems, expandItemsAfresh] using Follows.pure none state kept
  | some item => simpa only [expandItems, expandItemsAfresh] using (parts item rfl).map some state kept

/-- Opening a component that is not kept: its expansion is kept afterwards exactly when it has cut
nothing off, so what is kept stays what plain expansion gives. -/
theorem expand_open_follows {name : String} {target : SchemaNode} (found : tree.get? name = some target)
    (closed : name ∉ stack) (unknown : state.done.lookup name = none) (kept : tree.Kept state.done)
    (inside : tree.Follows (tree.expand (name :: stack) target) (tree.expandAfresh (name :: stack) target)) :
    tree.Extends state (tree.expand stack (.reference name) state) (tree.expandAfresh stack (.reference name)) := by
  have same := expandAfresh_open found closed
  rw [expand_open found closed unknown, same]
  have after := inside state kept
  cases plain : tree.expandAfresh (name :: stack) target with
  | error error =>
    rw [plain] at after
    simp only [Extends] at after
    simp [Extends, after, bind, Except.bind]
  | ok outcome =>
    obtain ⟨result, cycles⟩ := outcome
    rw [plain] at after same
    obtain ⟨done, keptAfter, run⟩ := after
    by_cases quiet : cycles = []
    · subst quiet
      exact ⟨done.insert name result, keptAfter.insert same, by simp [run, bind, Except.bind, pure, Except.pure]⟩
    · exact ⟨done, keptAfter, by simp [run, quiet, bind, Except.bind, pure, Except.pure]⟩

theorem expand_follows {node : SchemaNode} (trail : tree.Trail stack node) :
    tree.Follows (tree.expand stack node) (tree.expandAfresh stack node) := by
  induction stack, node using expansion_induction tree with
  | object stack properties values facets inProperties inValues =>
    have early := expandEach_follows fun member inside =>
      inProperties member inside (trail.mono fun _ refers => refers.of_property inside)
    have late : tree.Follows (tree.expandValues stack values) (tree.expandValuesAfresh stack values) := by
      apply expandValues_follows
      rintro shape rfl
      exact inValues shape rfl (trail.mono fun _ refers => refers.of_shape)
    intro state kept
    simpa only [expand, expandAfresh] using
      early.both late (fun properties values => SchemaNode.object properties values facets) state kept
  | array stack items annotations inItems =>
    have inside : tree.Follows (tree.expandItems stack items) (tree.expandItemsAfresh stack items) := by
      apply expandItems_follows
      rintro item rfl
      exact inItems item rfl (trail.mono fun _ refers => refers.of_item)
    intro state kept
    simpa only [expand, expandAfresh] using inside.map (fun items => SchemaNode.array items annotations) state kept
  | scalar stack kind annotations =>
    intro state kept
    simpa only [expand, expandAfresh] using Follows.pure (SchemaNode.scalar kind annotations) state kept
  | reference stack name inTarget =>
    intro state kept
    cases found : tree.get? name with
    | none => simp only [expandAfresh_dangling found, expand_dangling found, Extends]
    | some target =>
      by_cases opened : name ∈ stack
      · rw [expandAfresh_opened found opened]
        exact ⟨state.done, kept, expand_opened found opened⟩
      · cases known : state.done.lookup name with
        | none => exact expand_open_follows found opened known kept (inTarget target found opened (trail.open found))
        | some expanded =>
          obtain ⟨elsewhere, fresh⟩ := kept name expanded known
          rw [expandAfresh_reuse fresh trail]
          exact ⟨state.done, kept, by simp [expand_kept found opened known]⟩

/-- A tree flattens to what expanding every reference anew gives: the same root, node and cuts in
the same order, or the same error. -/
theorem flatten_eq_flattenAfresh (tree : SchemaTree) (kind version : String) :
    tree.flatten kind version = tree.flattenAfresh kind version := by
  cases roots : tree.roots with
  | nil => simp only [flatten, flattenAfresh, roots]
  | cons root others =>
    cases others with
    | cons second others => simp only [flatten, flattenAfresh, roots]
    | nil =>
      cases found : tree.get? root with
      | none => simp only [flatten, flattenAfresh, roots, found]
      | some node =>
        have after := expand_follows (Trail.root found) ⟨[], []⟩ Kept.empty
        simp only [flatten, flattenAfresh, roots, found]
        cases plain : tree.expandAfresh [root] node with
        | error error =>
          rw [plain] at after
          simp only [Extends] at after
          simp [after, bind, Except.bind]
        | ok outcome =>
          rw [plain] at after
          obtain ⟨done, _, run⟩ := after
          simp [run, bind, Except.bind]

end ResourceKinds.SchemaTree
