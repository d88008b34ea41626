import ResourceKinds.Proofs.Kind.Merging
import ResourceKinds.Proofs.Result

namespace ResourceKinds

namespace AppManifest

theorem mem_of_kindVersion? {manifest : AppManifest} {kind version : String} {declared : KindVersion}
    (found : manifest.kindVersion? kind version = some declared) :
    ∃ definition ∈ manifest.kinds, definition.kind = kind ∧ declared ∈ definition.versions ∧
      declared.name = version := by
  obtain ⟨definition, inside, named⟩ := List.exists_of_findSome?_eq_some found
  obtain ⟨inside, ofKind⟩ := List.mem_filter.mp inside
  refine ⟨definition, inside, by simpa using ofKind, List.mem_of_find?_eq_some named, ?_⟩
  simpa using List.find?_some named

theorem isSome_kindVersion? {manifest : AppManifest} {definition : KindDefinition} {version : KindVersion}
    (inside : definition ∈ manifest.kinds) (declared : version ∈ definition.versions) :
    (manifest.kindVersion? definition.kind version.name).isSome = true := by
  refine List.findSome?_isSome_iff.mpr ⟨definition, List.mem_filter.mpr ⟨inside, by simp⟩, ?_⟩
  refine List.find?_isSome.mpr ⟨version, declared, by simp⟩

/-- The versions of a merged definition are declared in the manifest. -/
theorem isSome_kindVersion?_of_merged {manifest : AppManifest} {merged : KindDefinition} {version : KindVersion}
    (inside : merged ∈ KindDefinition.mergeAll manifest.kinds) (declared : version ∈ merged.versions) :
    (manifest.kindVersion? merged.kind version.name).isSome = true := by
  obtain ⟨definition, inKinds, _, named, declared⟩ :=
    KindDefinition.exists_declaring_mergeAll.mp ⟨merged, inside, rfl, rfl, declared⟩
  rw [← named]
  exact isSome_kindVersion? inKinds declared

theorem checkGroups_eq_ok {app group : String} {kinds : List KindDefinition}
    (checked : checkGroups app group kinds = .ok ()) : ∀ kind ∈ kinds, kind.group = group ∧ group ≠ "" := by
  induction kinds with
  | nil => simp
  | cons kind rest ih =>
    simp only [checkGroups] at checked
    split at checked
    · cases checked
    split at checked
    · cases checked
    rename_i nonempty same
    have inGroup : kind.group = group := by simpa using same
    intro other inside
    rcases List.mem_cons.mp inside with rfl | later
    · exact ⟨inGroup, inGroup ▸ nonempty⟩
    · exact ih checked other later

/-- A manifest with a group has all of its kinds in it. -/
theorem group_of_resolveGroup {manifest : AppManifest} {group : String} (resolved : manifest.resolveGroup = .ok group) :
    ∀ kind ∈ manifest.kinds, kind.group = group ∧ group ≠ "" := by
  unfold resolveGroup at resolved
  split at resolved
  · cases resolved
  obtain ⟨found, _, resolved⟩ := bind_eq_ok.mp resolved
  obtain ⟨_, checked, resolved⟩ := bind_eq_ok.mp resolved
  obtain rfl := Except.ok.inj resolved
  exact checkGroups_eq_ok checked

theorem group_of_merged {manifest : AppManifest} {group : String} (resolved : manifest.resolveGroup = .ok group)
    {merged : KindDefinition} (inside : merged ∈ KindDefinition.mergeAll manifest.kinds) :
    merged.group = group ∧ group ≠ "" := by
  obtain ⟨definition, inKinds, sameGroup, _⟩ := KindDefinition.exists_named_mergeAll.mp ⟨merged, inside, rfl, rfl⟩
  rw [← sameGroup]
  exact group_of_resolveGroup resolved definition inKinds

/-- In a manifest with a group no two merged definitions have one name. -/
theorem eq_of_named {manifest : AppManifest} {group : String} (resolved : manifest.resolveGroup = .ok group)
    {merged other : KindDefinition} (inside : merged ∈ KindDefinition.mergeAll manifest.kinds)
    (inMerged : other ∈ KindDefinition.mergeAll manifest.kinds) (named : other.kind = merged.kind) : other = merged := by
  have sameGroup : other.group = merged.group := by
    rw [(group_of_merged resolved inMerged).1, (group_of_merged resolved inside).1]
  exact KindDefinition.eq_of_apart (KindDefinition.apart_mergeAll _) inMerged inside
    (KindDefinition.sameKind_iff.mpr ⟨sameGroup, named⟩)

/-- In a manifest with a group, a merged definition has every version that is declared for its kind. -/
theorem mem_versions_of_kindVersion? {manifest : AppManifest} {group : String}
    (resolved : manifest.resolveGroup = .ok group) {merged : KindDefinition}
    (inside : merged ∈ KindDefinition.mergeAll manifest.kinds) {version : String} {declared : KindVersion}
    (found : manifest.kindVersion? merged.kind version = some declared) :
    declared ∈ merged.versions ∧ declared.name = version := by
  obtain ⟨definition, inKinds, named, declares, versionNamed⟩ := mem_of_kindVersion? found
  obtain ⟨other, inMerged, _, otherName, declares⟩ :=
    KindDefinition.exists_declaring_mergeAll.mpr ⟨definition, inKinds, rfl, rfl, declares⟩
  obtain rfl := eq_of_named resolved inside inMerged (otherName.trans named)
  exact ⟨declares, versionNamed⟩

end AppManifest

end ResourceKinds
