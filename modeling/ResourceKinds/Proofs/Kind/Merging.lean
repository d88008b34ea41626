import ResourceKinds.Conversion.Graph

namespace ResourceKinds

namespace KindDefinition

theorem sameKind_iff {a b : KindDefinition} : a.sameKind b = true ↔ a.group = b.group ∧ a.kind = b.kind := by
  simp [sameKind]

/-- What holds of a merged list without definitions, and is kept by merging one more, holds in the end. -/
theorem mergeAll_induction {motive : List KindDefinition → List KindDefinition → Prop} (nil : motive [] [])
    (merge : ∀ kinds merged added, motive kinds merged → motive (kinds ++ [added]) (mergeInto merged added))
    (kinds : List KindDefinition) : motive kinds (mergeAll kinds) := by
  have onwards (rest : List KindDefinition) : ∀ before merged, motive before merged →
      motive (before ++ rest) (rest.foldl mergeInto merged) := by
    induction rest with
    | nil => simp
    | cons added rest ih =>
      intro before merged holds
      simpa using ih (before ++ [added]) (mergeInto merged added) (merge before merged added holds)
  exact onwards kinds [] [] nil

section Search

variable {holds : KindDefinition → Prop} (merges : ∀ a b, a.sameKind b = true → (holds (a.merge b) ↔ holds a ∨ holds b))

include merges

theorem exists_mergeInto (merged : List KindDefinition) (added : KindDefinition) :
    (∃ definition ∈ mergeInto merged added, holds definition) ↔
      (∃ definition ∈ merged, holds definition) ∨ holds added := by
  induction merged with
  | nil => simp [mergeInto]
  | cons earlier rest ih =>
    simp only [mergeInto]
    split
    · rename_i same
      simp only [List.mem_cons, or_and_right, exists_or, exists_eq_left, merges earlier added same]
      exact or_right_comm
    · simp only [List.mem_cons, or_and_right, exists_or, exists_eq_left, ih, or_assoc]

/-- What a merged definition has just if one of its parts has it, some merged definition has just if
some definition of the list has it. -/
theorem exists_mergeAll (kinds : List KindDefinition) :
    (∃ definition ∈ mergeAll kinds, holds definition) ↔ ∃ definition ∈ kinds, holds definition := by
  induction kinds using mergeAll_induction with
  | nil => simp
  | merge kinds merged added ih =>
    rw [exists_mergeInto merges, ih]
    simp [or_and_right, exists_or]

end Search

theorem exists_named_mergeInto {group kind : String} (merged : List KindDefinition) (added : KindDefinition) :
    (∃ definition ∈ mergeInto merged added, definition.group = group ∧ definition.kind = kind) ↔
      (∃ definition ∈ merged, definition.group = group ∧ definition.kind = kind) ∨
        (added.group = group ∧ added.kind = kind) := by
  refine exists_mergeInto (fun a b same => ?_) merged added
  obtain ⟨sameGroup, sameName⟩ := sameKind_iff.mp same
  simp [merge, sameGroup, sameName]

theorem exists_named_mergeAll {kinds : List KindDefinition} {group kind : String} :
    (∃ definition ∈ mergeAll kinds, definition.group = group ∧ definition.kind = kind) ↔
      ∃ definition ∈ kinds, definition.group = group ∧ definition.kind = kind := by
  refine exists_mergeAll (fun a b same => ?_) kinds
  obtain ⟨sameGroup, sameName⟩ := sameKind_iff.mp same
  simp [merge, sameGroup, sameName]

theorem exists_declaring_mergeAll {kinds : List KindDefinition} {group kind : String} {version : KindVersion} :
    (∃ definition ∈ mergeAll kinds, definition.group = group ∧ definition.kind = kind ∧ version ∈ definition.versions) ↔
      ∃ definition ∈ kinds, definition.group = group ∧ definition.kind = kind ∧ version ∈ definition.versions := by
  refine exists_mergeAll (fun a b same => ?_) kinds
  obtain ⟨sameGroup, sameName⟩ := sameKind_iff.mp same
  simp only [merge, sameGroup, sameName, List.mem_append, ← and_or_left]

/-- The definitions are of kinds that differ from each other. -/
def Apart (kinds : List KindDefinition) : Prop := kinds.Pairwise fun a b => a.sameKind b = false

theorem eq_of_apart {kinds : List KindDefinition} (apart : Apart kinds) {a b : KindDefinition} (first : a ∈ kinds)
    (second : b ∈ kinds) (same : a.sameKind b = true) : a = b := by
  induction kinds with
  | nil => cases first
  | cons kind rest ih =>
    obtain ⟨fromRest, apart⟩ := List.pairwise_cons.mp apart
    rcases List.mem_cons.mp first with rfl | later
    · rcases List.mem_cons.mp second with rfl | behind
      · rfl
      · exact absurd same (Bool.eq_false_iff.mp (fromRest b behind))
    · rcases List.mem_cons.mp second with rfl | behind
      · obtain ⟨sameGroup, sameName⟩ := sameKind_iff.mp same
        exact absurd (sameKind_iff.mpr ⟨sameGroup.symm, sameName.symm⟩) (Bool.eq_false_iff.mp (fromRest a later))
      · exact ih apart later behind

theorem apart_mergeInto {merged : List KindDefinition} (added : KindDefinition) (apart : Apart merged) :
    Apart (mergeInto merged added) := by
  induction merged with
  | nil => simp [mergeInto, Apart]
  | cons earlier rest ih =>
    obtain ⟨fromRest, apart⟩ := List.pairwise_cons.mp apart
    simp only [mergeInto]
    split
    · exact List.pairwise_cons.mpr ⟨fromRest, apart⟩
    · rename_i different
      refine List.pairwise_cons.mpr ⟨fun later inside => ?_, ih apart⟩
      refine Bool.eq_false_iff.mpr fun same => ?_
      obtain ⟨sameGroup, sameName⟩ := sameKind_iff.mp same
      have named := (exists_named_mergeInto rest added).mp ⟨later, inside, sameGroup.symm, sameName.symm⟩
      rcases named with ⟨definition, inRest, inGroup, named⟩ | ⟨inGroup, named⟩
      · exact Bool.eq_false_iff.mp (fromRest definition inRest) (sameKind_iff.mpr ⟨inGroup.symm, named.symm⟩)
      · exact different (sameKind_iff.mpr ⟨inGroup.symm, named.symm⟩)

theorem apart_mergeAll (kinds : List KindDefinition) : Apart (mergeAll kinds) := by
  induction kinds using mergeAll_induction with
  | nil => exact .nil
  | merge kinds merged added ih => exact apart_mergeInto added ih

end KindDefinition

end ResourceKinds
