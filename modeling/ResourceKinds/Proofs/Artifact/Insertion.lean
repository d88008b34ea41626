import ResourceKinds.Artifact.Set

namespace ResourceKinds.ArtifactSet

variable {policy : CollisionPolicy} {set next result : ArtifactSet} {artifact : Artifact}

theorem insertAll_cons_eq_ok {rest : List Artifact} : (set.insertAll policy (artifact :: rest)).value = .ok result ↔
    ∃ next, set.insert policy artifact = .ok next ∧ (next.insertAll policy rest).value = .ok result := by
  simp only [insertAll, insertLogged, Logged.bind_value]
  cases set.insert policy artifact with
  | error error => simp [pure]
  | ok next => simp

theorem insertAll_append_eq_ok {first later : List Artifact} :
    (set.insertAll policy (first ++ later)).value = .ok result ↔
      ∃ middle, (set.insertAll policy first).value = .ok middle ∧
        (middle.insertAll policy later).value = .ok result := by
  induction first generalizing set with
  | nil => simp [insertAll, pure]
  | cons artifact rest ih =>
    simp only [List.cons_append, insertAll_cons_eq_ok, ih]
    constructor
    · rintro ⟨next, inserted, middle, rest, later⟩
      exact ⟨middle, ⟨next, inserted, rest⟩, later⟩
    · rintro ⟨middle, ⟨next, inserted, rest⟩, later⟩
      exact ⟨next, inserted, middle, rest, later⟩

theorem insert_new (policy : CollisionPolicy) (new : set.get? artifact.path = none) :
    set.insert policy artifact = .ok ⟨set.artifacts ++ [artifact], set.collisions⟩ := by
  simp only [ArtifactSet.insert, claimants?, new, add]

/-- A file that is made twice in a row is kept once. -/
theorem insertAll_pair (policy : CollisionPolicy) (new : set.get? artifact.path = none)
    (credited : artifact.credit artifact.generators = artifact) :
    (set.insertAll policy [artifact, artifact]).value = .ok ⟨set.artifacts ++ [artifact], set.collisions⟩ := by
  have found : get? ⟨set.artifacts ++ [artifact], set.collisions⟩ artifact.path = some artifact := by
    unfold get? at new ⊢
    rw [List.find?_append, new]
    simp
  have others : ∀ earlier ∈ set.artifacts, earlier.path ≠ artifact.path := by
    simpa [get?] using new
  have same : (set.artifacts ++ [artifact]).map (fun earlier => if earlier.path = artifact.path then
      earlier.credit artifact.generators else earlier) = set.artifacts ++ [artifact] := by
    rw [List.map_append, List.map_congr_left fun earlier inside => if_neg (others earlier inside)]
    simp [credited]
  refine insertAll_cons_eq_ok.mpr ⟨_, insert_new policy new, insertAll_cons_eq_ok.mpr ⟨_, ?_, rfl⟩⟩
  simp only [ArtifactSet.insert, claimants?, found, if_true, add, same]

/-- The file is in the set, or it has been left out for all to see. -/
def Accounts (set : ArtifactSet) (policy : CollisionPolicy) (artifact : Artifact) : Prop :=
  (∃ kept ∈ set.artifacts, kept.path = artifact.path ∧ kept.checksum = artifact.checksum) ∨
    policy = .warn ∧ ∃ collision ∈ set.collisions, collision.path = artifact.path

/-- Credit changes neither the path nor the content of a file. -/
theorem exists_kept_add {kept : Artifact} (inside : kept ∈ set.artifacts) (artifact : Artifact) :
    ∃ still ∈ (set.add artifact).artifacts, still.path = kept.path ∧ still.checksum = kept.checksum := by
  unfold add
  split
  · exact ⟨kept, List.mem_append_left _ inside, rfl, rfl⟩
  · refine ⟨_, List.mem_map_of_mem inside, ?_⟩
    split <;> exact ⟨rfl, rfl⟩

theorem Accounts.insert {new : Artifact} (accounts : set.Accounts policy artifact)
    (inserted : set.insert policy new = .ok next) : next.Accounts policy artifact := by
  unfold ArtifactSet.insert at inserted
  split at inserted
  · obtain rfl := Except.ok.inj inserted
    rcases accounts with ⟨kept, inside, path, checksum⟩ | ⟨warns, collision, recorded, path⟩
    · obtain ⟨still, inside, samePath, sameChecksum⟩ := exists_kept_add inside new
      exact .inl ⟨still, inside, samePath.trans path, sameChecksum.trans checksum⟩
    · refine .inr ⟨warns, collision, ?_, path⟩
      unfold add
      split <;> exact recorded
  · cases inserted
  · obtain rfl := Except.ok.inj inserted
    rcases accounts with kept | ⟨warns, collision, recorded, path⟩
    · exact .inl kept
    · exact .inr ⟨warns, collision, List.mem_append_left _ recorded, path⟩

theorem accounts_of_insert (inserted : set.insert policy artifact = .ok next) : next.Accounts policy artifact := by
  unfold ArtifactSet.insert at inserted
  split at inserted
  · rename_i claim
    obtain rfl := Except.ok.inj inserted
    unfold claimants? at claim
    split at claim
    · rename_i absent
      refine .inl ⟨artifact, ?_, rfl, rfl⟩
      simp [add, absent]
    · rename_i earlier present
      split at claim
      · rename_i same
        have path : earlier.path = artifact.path := by simpa using List.find?_some present
        obtain ⟨still, inside, samePath, sameChecksum⟩ := exists_kept_add (List.mem_of_find?_eq_some present) artifact
        exact .inl ⟨still, inside, samePath.trans path, sameChecksum.trans same⟩
      · cases claim
  · cases inserted
  · obtain rfl := Except.ok.inj inserted
    exact .inr ⟨rfl, _, List.mem_append_right _ (List.mem_singleton_self _), rfl⟩

/-- A set accounts for every file that was inserted, as well as for those that it accounted for before. -/
theorem accounts_of_insertAll {artifacts : List Artifact}
    (inserted : (set.insertAll policy artifacts).value = .ok result) :
    ∀ artifact, artifact ∈ artifacts ∨ set.Accounts policy artifact → result.Accounts policy artifact := by
  induction artifacts generalizing set with
  | nil =>
    obtain rfl : set = result := Except.ok.inj inserted
    rintro artifact (nowhere | accounts)
    · cases nowhere
    · exact accounts
  | cons first rest ih =>
    obtain ⟨next, inserted, later⟩ := insertAll_cons_eq_ok.mp inserted
    rintro artifact (inside | accounts)
    · rcases List.mem_cons.mp inside with rfl | inside
      · exact ih later artifact (.inr (accounts_of_insert inserted))
      · exact ih later artifact (.inl inside)
    · exact ih later artifact (.inr (accounts.insert inserted))

end ResourceKinds.ArtifactSet
