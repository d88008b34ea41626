import ResourceKinds.Proofs.CacheRuns
import ResourceKinds.Proofs.Kind.Declarations
import ResourceKinds.Proofs.Kind.MergedParts
import ResourceKinds.Selector

namespace ResourceKinds

namespace KindDefinition

/-- The test tells no two definitions of one kind apart. -/
def GoesByName (accepts : KindDefinition → Bool) : Prop :=
  ∀ a b : KindDefinition, a.name = b.name → accepts a = accepts b

namespace GoesByName

variable {accepts : KindDefinition → Bool} (byName : GoesByName accepts)

include byName

theorem filter_mergeInto (merged : List KindDefinition) (added : KindDefinition) :
    (mergeInto merged added).filter accepts =
      if accepts added then mergeInto (merged.filter accepts) added else merged.filter accepts := by
  induction merged with
  | nil => rw [mergeInto, List.filter_cons, List.filter_nil, mergeInto]
  | cons earlier rest ih =>
    have kept : accepts (earlier.merge added) = accepts earlier := byName _ _ rfl
    rw [mergeInto]
    split
    · rename_i same
      have named : accepts added = accepts earlier := by
        obtain ⟨sameGroup, sameName⟩ := sameKind_iff.mp same
        exact byName _ _ (Prod.ext sameGroup.symm sameName.symm)
      rw [List.filter_cons, List.filter_cons, kept, named]
      split
      · rw [mergeInto, if_pos same]
      · rfl
    · rename_i different
      rw [List.filter_cons, List.filter_cons, ih]
      split
      · rw [mergeInto, if_neg different]
        split <;> rfl
      · rfl

/-- It does not matter whether kinds are selected before or after they are merged. -/
theorem filter_mergeAll (kinds : List KindDefinition) :
    (mergeAll kinds).filter accepts = mergeAll (kinds.filter accepts) := by
  induction kinds using List.reverseRecOn with
  | nil => rfl
  | append_singleton kinds added ih =>
    rw [mergeAll_concat, byName.filter_mergeInto, ih, List.filter_append, List.filter_cons, List.filter_nil]
    split
    · rw [mergeAll_concat]
    · rw [List.append_nil]

/-- Of the definitions of one kind all are selected, or none. -/
theorem ofKind_filter (kinds : List KindDefinition) (group kind : String) :
    ofKind (kinds.filter accepts) group kind = ofKind kinds group kind ∨
      ofKind (kinds.filter accepts) group kind = [] := by
  have within : ofKind (kinds.filter accepts) group kind = (ofKind kinds group kind).filter accepts := by
    simp only [ofKind, List.filter_filter, Bool.and_comm]
  rw [within]
  cases parts : ofKind kinds group kind with
  | nil => exact .inl rfl
  | cons first rest =>
    have firstInside : first ∈ ofKind kinds group kind := parts ▸ List.mem_cons_self ..
    have alike (definition : KindDefinition) (inside : definition ∈ first :: rest) :
        accepts definition = accepts first := by
      obtain ⟨_, inGroup, named⟩ := mem_ofKind.mp (parts ▸ inside)
      obtain ⟨_, firstInGroup, firstNamed⟩ := mem_ofKind.mp firstInside
      exact byName _ _ (Prod.ext (inGroup.trans firstInGroup.symm) (named.trans firstNamed.symm))
    cases accepted : accepts first with
    | true => exact .inl (List.filter_eq_self.mpr fun definition inside => (alike definition inside).trans accepted)
    | false =>
      refine .inr (List.filter_eq_nil_iff.mpr fun definition inside => ?_)
      rw [alike definition inside, accepted]
      exact Bool.false_ne_true

end GoesByName

end KindDefinition

open KindDefinition (mergeAll ofKind)

namespace AppManifest

theorem resolveGroup_eq_ok {manifest : AppManifest} {group : String} : manifest.resolveGroup = .ok group ↔
    manifest.appName ≠ "" ∧ manifest.declaredGroup = .ok group ∧
      ∀ kind ∈ manifest.kinds, kind.group = group ∧ group ≠ "" := by
  have checked : checkGroups manifest.appName group manifest.kinds = .ok () ↔
      ∀ kind ∈ manifest.kinds, kind.group = group ∧ group ≠ "" := by
    refine ⟨checkGroups_eq_ok, fun inGroup => ?_⟩
    have nobody : (manifest.kinds.map KindDefinition.name).find? (fun name => name.1 = "" || name.1 ≠ group) =
        none := by
      refine List.find?_eq_none.mpr fun name inside => ?_
      obtain ⟨kind, inKinds, rfl⟩ := List.mem_map.mp inside
      obtain ⟨same, nonempty⟩ := inGroup kind inKinds
      simp [KindDefinition.name, same, nonempty]
    rw [checkGroups_eq, nobody]
  rw [← checked]
  unfold resolveGroup
  by_cases named : manifest.appName = ""
  · rw [if_pos named]
    refine ⟨fun resolved => ?_, fun all => absurd named all.1⟩
    cases resolved
  · rw [if_neg named]
    constructor
    · intro resolved
      obtain ⟨found, declares, resolved⟩ := bind_eq_ok.mp resolved
      obtain ⟨_, alike, resolved⟩ := bind_eq_ok.mp resolved
      obtain rfl := Except.ok.inj resolved
      exact ⟨named, declares, alike⟩
    · rintro ⟨_, declares, alike⟩
      exact bind_eq_ok.mpr ⟨group, declares, bind_eq_ok.mpr ⟨(), alike, rfl⟩⟩

end AppManifest

namespace KindSelector

variable (selector : KindSelector) (manifest : AppManifest)

theorem goesByName : KindDefinition.GoesByName selector.accepts := by
  intro a b same
  obtain ⟨sameGroup, sameName⟩ := Prod.mk.inj same
  have pattern (pattern : KindPattern) : pattern.accepts a = pattern.accepts b := by
    simp only [KindPattern.accepts, sameGroup, sameName]
  simp only [accepts, pattern]

theorem mergeAll_restrict :
    mergeAll (selector.restrict manifest).kinds = (mergeAll manifest.kinds).filter selector.accepts :=
  (selector.goesByName.filter_mergeAll manifest.kinds).symm

variable {selector manifest} {group : String} (resolved : manifest.resolveGroup = .ok group)

include resolved

/-- The group of a manifest is that of any of its kinds, so it does not matter which of them are left and that the first
of them, which a manifest without a group of its own goes by, may be another one. -/
theorem resolveGroup_restrict (some : (selector.restrict manifest).kinds ≠ []) :
    (selector.restrict manifest).resolveGroup = .ok group := by
  obtain ⟨named, declares, inGroup⟩ := AppManifest.resolveGroup_eq_ok.mp resolved
  have left (kind : KindDefinition) (inside : kind ∈ (selector.restrict manifest).kinds) :
      kind.group = group ∧ group ≠ "" := inGroup kind (List.mem_filter.mp inside).1
  refine AppManifest.resolveGroup_eq_ok.mpr ⟨named, ?_, left⟩
  obtain ⟨first, rest, kept⟩ := List.exists_cons_of_ne_nil some
  obtain ⟨same, nonempty⟩ := left first (kept ▸ List.mem_cons_self ..)
  unfold AppManifest.declaredGroup at declares ⊢
  by_cases own : manifest.group = ""
  · have ownLeft : (selector.restrict manifest).group = "" := own
    rw [if_neg (not_not_intro ownLeft), kept]
    simp only [same, nonempty, if_false]
  · rw [if_pos own] at declares
    have ownLeft : (selector.restrict manifest).group ≠ "" := own
    rw [if_pos ownLeft]
    exact declares

theorem kindVersion?_restrict {kind : KindDefinition} (inside : kind ∈ mergeAll manifest.kinds)
    (accepted : selector.accepts kind = true) (version : String) :
    (selector.restrict manifest).kindVersion? kind.kind version = manifest.kindVersion? kind.kind version := by
  have inGroup := AppManifest.group_of_resolveGroup resolved
  have alike : (selector.restrict manifest).kinds.filter (·.kind = kind.kind) =
      manifest.kinds.filter (·.kind = kind.kind) := by
    rw [restrict, List.filter_filter]
    refine List.filter_congr fun definition inKinds => ?_
    by_cases named : definition.kind = kind.kind
    · have sameGroup : definition.group = kind.group := by
        rw [(inGroup definition inKinds).1, (AppManifest.group_of_merged resolved inside).1]
      rw [selector.goesByName definition kind (Prod.ext sameGroup named), accepted, Bool.and_true]
    · simp [named]
  rw [AppManifest.kindVersion?, AppManifest.kindVersion?, alike]

/-- A selected kind has the schemas that it has in the whole manifest. -/
theorem schemaOf_restrict {kind : KindDefinition} (inside : kind ∈ mergeAll manifest.kinds)
    (accepted : selector.accepts kind = true) (version : String) :
    (selector.restrict manifest).schemaOf kind.kind version = manifest.schemaOf kind.kind version := by
  have some : (selector.restrict manifest).kinds ≠ [] := by
    have left : kind ∈ mergeAll (selector.restrict manifest).kinds := by
      rw [selector.mergeAll_restrict manifest]
      exact List.mem_filter.mpr ⟨inside, accepted⟩
    intro nothing
    rw [nothing] at left
    cases left
  unfold AppManifest.schemaOf
  rw [resolveGroup_restrict resolved some, resolved, kindVersion?_restrict resolved inside accepted]

end KindSelector

end ResourceKinds
