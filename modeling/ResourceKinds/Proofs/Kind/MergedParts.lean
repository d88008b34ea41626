import Mathlib.Data.List.Induction
import ResourceKinds.Proofs.Kind.Merging

namespace ResourceKinds

namespace KindDefinition

/-- The definitions of one kind. -/
def ofKind (kinds : List KindDefinition) (group kind : String) : List KindDefinition :=
  kinds.filter fun definition => definition.group = group ∧ definition.kind = kind

theorem mem_ofKind {kinds : List KindDefinition} {group kind : String} {definition : KindDefinition} :
    definition ∈ ofKind kinds group kind ↔ definition ∈ kinds ∧ definition.group = group ∧ definition.kind = kind := by
  simp [ofKind]

theorem ofKind_append (kinds more : List KindDefinition) (group kind : String) :
    ofKind (kinds ++ more) group kind = ofKind kinds group kind ++ ofKind more group kind :=
  List.filter_append ..

theorem mergeAll_concat (kinds : List KindDefinition) (added : KindDefinition) :
    mergeAll (kinds ++ [added]) = mergeInto (mergeAll kinds) added := by
  rw [mergeAll, List.foldl_append]
  rfl

/-- Definitions of one kind, the first of them given, as one. -/
def joined (first : KindDefinition) (rest : List KindDefinition) : KindDefinition :=
  { first with
    versions := (first :: rest).flatMap versions
    preferredVersion := (first :: rest).findSome? preferredVersion }

theorem merge_joined (first : KindDefinition) (rest : List KindDefinition) (added : KindDefinition) :
    (joined first rest).merge added = joined first (rest ++ [added]) := by
  simp only [merge, joined, ← List.cons_append, List.flatMap_append, List.findSome?_append]
  simp

theorem mem_mergeInto {merged : List KindDefinition} (apart : Apart merged) {added definition : KindDefinition}
    (inside : definition ∈ mergeInto merged added) :
    definition ∈ merged ∧ definition.sameKind added = false ∨
      (∃ earlier ∈ merged, earlier.sameKind added = true ∧ definition = earlier.merge added) ∨
      definition = added ∧ ∀ earlier ∈ merged, earlier.sameKind added = false := by
  induction merged with
  | nil => exact .inr (.inr ⟨List.mem_singleton.mp inside, nofun⟩)
  | cons earlier rest ih =>
    obtain ⟨fromRest, apart⟩ := List.pairwise_cons.mp apart
    simp only [mergeInto] at inside
    split at inside
    · rename_i same
      rcases List.mem_cons.mp inside with rfl | later
      · exact .inr (.inl ⟨earlier, List.mem_cons_self .., same, rfl⟩)
      · refine .inl ⟨List.mem_cons_of_mem _ later, ?_⟩
        have different := fromRest definition later
        rw [Bool.eq_false_iff] at different ⊢
        intro also
        rw [sameKind_iff] at same also
        exact different (sameKind_iff.mpr ⟨same.1.trans also.1.symm, same.2.trans also.2.symm⟩)
    · rename_i different
      rcases List.mem_cons.mp inside with rfl | later
      · exact .inl ⟨List.mem_cons_self .., by simpa using different⟩
      · rcases ih apart later with ⟨old, other⟩ | ⟨part, inRest, same, rfl⟩ | ⟨rfl, new⟩
        · exact .inl ⟨List.mem_cons_of_mem _ old, other⟩
        · exact .inr (.inl ⟨part, List.mem_cons_of_mem _ inRest, same, rfl⟩)
        · refine .inr (.inr ⟨rfl, fun other inside => ?_⟩)
          rcases List.mem_cons.mp inside with rfl | inRest
          · simpa using different
          · exact new other inRest

/-- A merged definition is made of all definitions of its kind, in their order. -/
theorem mem_mergeAll {kinds : List KindDefinition} {merged : KindDefinition} (inside : merged ∈ mergeAll kinds) :
    ∃ first rest, ofKind kinds merged.group merged.kind = first :: rest ∧ merged = joined first rest := by
  induction kinds using List.reverseRecOn generalizing merged with
  | nil => cases inside
  | append_singleton kinds added ih =>
    rw [mergeAll_concat] at inside
    rw [ofKind_append]
    rcases mem_mergeInto (apart_mergeAll kinds) inside with ⟨old, different⟩ | ⟨earlier, old, same, rfl⟩ | ⟨rfl, new⟩
    · obtain ⟨first, rest, parts, made⟩ := ih old
      refine ⟨first, rest, ?_, made⟩
      rw [parts]
      have none : ofKind [added] merged.group merged.kind = [] := by
        refine List.filter_eq_nil_iff.mpr fun definition inside named => ?_
        obtain rfl := List.mem_singleton.mp inside
        obtain ⟨sameGroup, sameName⟩ := of_decide_eq_true named
        exact Bool.eq_false_iff.mp different (sameKind_iff.mpr ⟨sameGroup.symm, sameName.symm⟩)
      rw [none, List.append_nil]
    · obtain ⟨first, rest, parts, made⟩ := ih old
      obtain ⟨sameGroup, sameName⟩ := sameKind_iff.mp same
      refine ⟨first, rest ++ [added], ?_, by rw [← merge_joined, ← made]⟩
      have one : ofKind [added] earlier.group earlier.kind = [added] := by simp [ofKind, sameGroup, sameName]
      rw [merge, parts, one, List.cons_append]
    · have none : ofKind kinds merged.group merged.kind = [] := by
        refine List.filter_eq_nil_iff.mpr fun definition inKinds named => ?_
        obtain ⟨earlier, inMerged, named⟩ :=
          exists_named_mergeAll.mpr ⟨definition, inKinds, of_decide_eq_true named⟩
        exact Bool.eq_false_iff.mp (new earlier inMerged) (sameKind_iff.mpr named)
      refine ⟨merged, [], by rw [none]; simp [ofKind], ?_⟩
      simp [joined]

/-- The group and the name of a kind, which merging does not change. -/
def name (definition : KindDefinition) : String × String := (definition.group, definition.kind)

theorem versions_of_merged {kinds : List KindDefinition} {merged : KindDefinition} (inside : merged ∈ mergeAll kinds)
    {group kind : String} (named : merged.name = (group, kind)) :
    merged.versions = (ofKind kinds group kind).flatMap versions := by
  obtain ⟨first, rest, parts, made⟩ := mem_mergeAll inside
  obtain ⟨rfl, rfl⟩ := Prod.mk.inj named
  rw [parts]
  exact congrArg versions made

theorem ofKind_eq_nil {kinds : List KindDefinition} {group kind : String}
    (absent : (group, kind) ∉ (mergeAll kinds).map name) : ofKind kinds group kind = [] := by
  refine List.eq_nil_iff_forall_not_mem.mpr fun definition inside => ?_
  obtain ⟨inKinds, named⟩ := mem_ofKind.mp inside
  obtain ⟨merged, inMerged, inGroup, ofName⟩ := exists_named_mergeAll.mpr ⟨definition, inKinds, named⟩
  exact absent (List.mem_map.mpr ⟨merged, inMerged, Prod.ext inGroup ofName⟩)

theorem find?_mergeInto (test : String × String → Bool) (merged : List KindDefinition) (added : KindDefinition) :
    ((mergeInto merged added).map name).find? test = ((merged ++ [added]).map name).find? test := by
  induction merged with
  | nil => rfl
  | cons earlier rest ih =>
    simp only [mergeInto]
    split
    · rename_i same
      obtain ⟨sameGroup, sameName⟩ := sameKind_iff.mp same
      have sameName : added.name = earlier.name := Prod.ext sameGroup.symm sameName.symm
      have kept : (earlier.merge added).name = earlier.name := rfl
      cases passes : test earlier.name <;> simp [List.find?_append, kept, passes, sameName]
    · rw [List.cons_append, List.map_cons, List.map_cons, List.find?_cons, List.find?_cons, ih]

/-- The first name that passes is the same before and after merging. -/
theorem find?_mergeAll (test : String × String → Bool) (kinds : List KindDefinition) :
    ((mergeAll kinds).map name).find? test = (kinds.map name).find? test := by
  induction kinds using List.reverseRecOn with
  | nil => rfl
  | append_singleton kinds added ih =>
    rw [mergeAll_concat, find?_mergeInto, List.map_append, List.map_append, List.find?_append, List.find?_append, ih]

end KindDefinition

namespace AppManifest

theorem declaredGroup_eq (manifest : AppManifest) : manifest.declaredGroup =
    if manifest.group ≠ "" then .ok manifest.group
    else match (manifest.kinds.map KindDefinition.name).find? fun _ => true with
      | none => .error (.noGroup manifest.appName)
      | some (group, kind) => if group = "" then .error (.emptyGroup manifest.appName kind) else .ok group := by
  unfold declaredGroup
  cases manifest.kinds <;> rfl

theorem checkGroups_eq (app group : String) (kinds : List KindDefinition) : checkGroups app group kinds =
    match (kinds.map KindDefinition.name).find? fun name => name.1 = "" || name.1 ≠ group with
    | none => .ok ()
    | some (found, kind) =>
      if found = "" then .error (.emptyGroup app kind) else .error (.groupMismatch app kind group found) := by
  induction kinds with
  | nil => rfl
  | cons definition rest ih =>
    rw [checkGroups, List.map_cons, List.find?_cons, ih]
    by_cases empty : definition.group = ""
    · simp [KindDefinition.name, empty]
    · by_cases same : definition.group = group
      · subst same
        simp [KindDefinition.name, empty]
      · simp [KindDefinition.name, empty, same]

/-- The group of a manifest goes by the names of its kinds as they are merged. -/
theorem resolveGroup_congr {a b : AppManifest} (sameApp : a.appName = b.appName) (sameGroup : a.group = b.group)
    (sameNames : (KindDefinition.mergeAll a.kinds).map KindDefinition.name =
      (KindDefinition.mergeAll b.kinds).map KindDefinition.name) : a.resolveGroup = b.resolveGroup := by
  have found (test : String × String → Bool) :
      (a.kinds.map KindDefinition.name).find? test = (b.kinds.map KindDefinition.name).find? test := by
    rw [← KindDefinition.find?_mergeAll, sameNames, KindDefinition.find?_mergeAll]
  simp only [resolveGroup, declaredGroup_eq, checkGroups_eq, sameApp, sameGroup, found]

end AppManifest

end ResourceKinds
