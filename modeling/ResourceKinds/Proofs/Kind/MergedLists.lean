import ResourceKinds.Proofs.Result
import ResourceKinds.Proofs.Kind.MergedParts

namespace ResourceKinds

namespace KindDefinition

variable {a b added : KindDefinition} {merged : List KindDefinition}

theorem sameKind_iff_name : a.sameKind b = true ↔ a.name = b.name := by
  rw [sameKind_iff, name, name, Prod.mk.injEq]

theorem name_merge (a b : KindDefinition) : (a.merge b).name = a.name := rfl

theorem merge_assoc (a b c : KindDefinition) : (a.merge b).merge c = a.merge (b.merge c) := by
  simp only [merge, List.append_assoc, Option.or_assoc]

theorem mergeInto_cons (earlier : KindDefinition) (rest : List KindDefinition) (added : KindDefinition) :
    mergeInto (earlier :: rest) added =
      if earlier.name = added.name then earlier.merge added :: rest else earlier :: mergeInto rest added := by
  simp only [mergeInto, sameKind_iff_name]

theorem map_name_mergeInto (merged : List KindDefinition) (added : KindDefinition) : (mergeInto merged added).map name =
    merged.map name ++ if added.name ∈ merged.map name then [] else [added.name] := by
  induction merged with
  | nil => rfl
  | cons earlier rest ih =>
    rw [mergeInto_cons, List.map_cons]
    by_cases same : earlier.name = added.name
    · simp [same, name_merge]
    · simp [same, ih, Ne.symm same]

/-- The kinds of the merged definitions come in the order in which they first occur. -/
theorem map_name_mergeAll (kinds : List KindDefinition) :
    (mergeAll kinds).map name = (kinds.map name).eraseDups := by
  induction kinds using mergeAll_induction with
  | nil => rfl
  | merge kinds merged added ih =>
    rw [map_name_mergeInto, List.map_append, List.map_singleton, eraseDups_concat, ih]
    simp only [List.mem_eraseDups]

/-- Two definitions of one kind are merged into a list one by one or as one. -/
theorem mergeInto_merge (same : a.name = b.name) (merged : List KindDefinition) :
    mergeInto merged (a.merge b) = mergeInto (mergeInto merged a) b := by
  induction merged with
  | nil => rw [mergeInto, mergeInto, mergeInto_cons, if_pos same]
  | cons earlier rest ih =>
    rw [mergeInto_cons, mergeInto_cons, name_merge]
    by_cases here : earlier.name = a.name
    · rw [if_pos here, if_pos here, mergeInto_cons, name_merge, if_pos (here.trans same), merge_assoc]
    · rw [if_neg here, if_neg here, mergeInto_cons, if_neg (same ▸ here), ih]

/-- Definitions of two kinds may be merged in either order when one of the kinds is in the list. -/
theorem mergeInto_comm (apart : a.name ≠ b.name) (known : b.name ∈ merged.map name) :
    mergeInto (mergeInto merged a) b = mergeInto (mergeInto merged b) a := by
  induction merged with
  | nil => cases known
  | cons earlier rest ih =>
    by_cases first : earlier.name = a.name
    · simp [mergeInto_cons, name_merge, first, apart]
    · by_cases second : earlier.name = b.name
      · simp [mergeInto_cons, name_merge, second, Ne.symm apart]
      · have later : b.name ∈ rest.map name := (List.mem_cons.mp known).resolve_left (Ne.symm second)
        simp only [mergeInto_cons, if_neg first, if_neg second, ih later]

/-- Definitions of other kinds may come before one of a kind that is in the list. -/
theorem foldl_mergeInto_comm {rest : List KindDefinition} (apart : ∀ other ∈ rest, other.name ≠ added.name)
    (known : added.name ∈ merged.map name) :
    rest.foldl mergeInto (mergeInto merged added) = mergeInto (rest.foldl mergeInto merged) added := by
  induction rest generalizing merged with
  | nil => rfl
  | cons other rest ih =>
    obtain ⟨here, later⟩ := List.forall_mem_cons.mp apart
    have stays : added.name ∈ (mergeInto merged other).map name := by
      rw [map_name_mergeInto]
      exact List.mem_append_left _ known
    rw [List.foldl_cons, List.foldl_cons, ← mergeInto_comm here known, ih later stays]

/-- A definition may be merged into definitions of different kinds before or after these are merged into others. -/
theorem foldl_mergeInto_mergeInto {definitions : List KindDefinition} (apart : Apart definitions)
    (merged : List KindDefinition) (added : KindDefinition) :
    (mergeInto definitions added).foldl mergeInto merged = mergeInto (definitions.foldl mergeInto merged) added := by
  induction definitions generalizing merged with
  | nil => rfl
  | cons first rest ih =>
    obtain ⟨fromRest, apart⟩ := List.pairwise_cons.mp apart
    rw [mergeInto_cons]
    by_cases same : first.name = added.name
    · have others : ∀ other ∈ rest, other.name ≠ added.name := by
        intro other inside named
        exact Bool.eq_false_iff.mp (fromRest other inside) (sameKind_iff_name.mpr (same.trans named.symm))
      have known : added.name ∈ (mergeInto merged first).map name := by
        rw [map_name_mergeInto, same]
        by_cases there : added.name ∈ merged.map name <;> simp [there]
      rw [if_pos same, List.foldl_cons, mergeInto_merge same, foldl_mergeInto_comm others known, List.foldl_cons]
    · rw [if_neg same, List.foldl_cons, ih apart, List.foldl_cons]

/-- Into any list, merged definitions are merged like those that they were made of. -/
theorem foldl_mergeInto_mergeAll (kinds merged : List KindDefinition) :
    (mergeAll kinds).foldl mergeInto merged = kinds.foldl mergeInto merged := by
  induction kinds using List.reverseRecOn with
  | nil => rfl
  | append_singleton kinds added ih =>
    rw [mergeAll_concat, foldl_mergeInto_mergeInto (apart_mergeAll kinds), ih, List.foldl_append]
    rfl

theorem mergeAll_append (before after : List KindDefinition) :
    mergeAll (before ++ after) = after.foldl mergeInto (mergeAll before) := List.foldl_append

/-- Merging makes one definition of each kind, in the order in which the kinds first occur. It has the versions of all
definitions of its kind in their order, the first preference that one of them states, and the rest from the first of
them. Merging once more changes nothing, nor does it matter whether the beginning of a list, or its end, is merged
beforehand. -/
theorem mergeAll_outcome (kinds before after : List KindDefinition) :
    ((mergeAll kinds).map name).Nodup ∧ (mergeAll kinds).map name = (kinds.map name).eraseDups ∧
    (∀ merged ∈ mergeAll kinds, ∃ first rest, ofKind kinds merged.group merged.kind = first :: rest ∧
      merged = { first with
        versions := (first :: rest).flatMap versions
        preferredVersion := (first :: rest).findSome? preferredVersion }) ∧
    mergeAll (mergeAll kinds) = mergeAll kinds ∧
    mergeAll (mergeAll before ++ after) = mergeAll (before ++ after) ∧
    mergeAll (mergeAll before ++ mergeAll after) = mergeAll (before ++ after) := by
  have again (kinds : List KindDefinition) : mergeAll (mergeAll kinds) = mergeAll kinds :=
    foldl_mergeInto_mergeAll kinds []
  refine ⟨?_, map_name_mergeAll kinds, fun merged inside => mem_mergeAll inside, again kinds, ?_, ?_⟩
  · rw [map_name_mergeAll]
    exact nodup_eraseDups _
  · rw [mergeAll_append, mergeAll_append, again]
  · rw [mergeAll_append, mergeAll_append, again, foldl_mergeInto_mergeAll]

def stallKind (kind : String) (preferred : Option String) (versions : List String) : KindDefinition where
  group := "stalls.dev"
  kind := kind
  scope := .namespaced
  machineName := ""
  plural := ""
  versions := versions.map fun name => ⟨name, .empty, [], [], ⟨true, true⟩, .none, false, true⟩
  preferredVersion := preferred

/-- A kind in two definitions, and another kind between them. -/
def stalls : List KindDefinition :=
  [stallKind "Stall" none ["v1"], stallKind "Lamp" none ["v1"], stallKind "Stall" (some "v1") ["v2"]]

theorem mergeAll_outcome_stalls : stallKind "Stall" (some "v1") ["v1", "v2"] ∈ mergeAll stalls ∧
    (∃ first rest, ofKind stalls "stalls.dev" "Stall" = first :: rest ∧
      stallKind "Stall" (some "v1") ["v1", "v2"] = { first with
        versions := (first :: rest).flatMap versions
        preferredVersion := (first :: rest).findSome? preferredVersion }) ∧
    (mergeAll stalls).map name = [("stalls.dev", "Stall"), ("stalls.dev", "Lamp")] ∧
    mergeAll (mergeAll (stalls.take 1) ++ mergeAll (stalls.drop 1)) =
      [stallKind "Stall" (some "v1") ["v1", "v2"], stallKind "Lamp" none ["v1"]] := by
  have inside : stallKind "Stall" (some "v1") ["v1", "v2"] ∈ mergeAll stalls := List.mem_cons_self ..
  obtain ⟨_, names, parts, _, _, pieces⟩ := mergeAll_outcome stalls (stalls.take 1) (stalls.drop 1)
  exact ⟨inside, parts _ inside, names.trans (by decide), pieces.trans rfl⟩

end KindDefinition

end ResourceKinds
