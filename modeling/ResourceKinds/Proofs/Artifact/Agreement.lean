import ResourceKinds.Proofs.Artifact.Histories

namespace ResourceKinds.ArtifactSet

variable {set next result : ArtifactSet} {file : Artifact} {files : List Artifact} {path : String}

/-- What the set has at the path of the file, if anything, is of the same content. -/
def Admits (set : ArtifactSet) (file : Artifact) : Prop :=
  ∀ checksum ∈ (set.get? file.path).map Artifact.checksum, checksum = file.checksum

/-- Files of one path are of one content. -/
def Alike (files : List Artifact) : Prop :=
  ∀ one ∈ files, ∀ other ∈ files, one.path = other.path → one.checksum = other.checksum

theorem alike_cons : Alike (file :: files) ↔
    (∀ other ∈ files, file.path = other.path → file.checksum = other.checksum) ∧ Alike files := by
  constructor
  · intro alike
    exact ⟨fun other inside => alike file (List.mem_cons_self ..) other (List.mem_cons_of_mem _ inside),
      fun one inside other among => alike one (List.mem_cons_of_mem _ inside) other (List.mem_cons_of_mem _ among)⟩
  · rintro ⟨first, alike⟩ one inside other among same
    rcases List.mem_cons.mp inside with rfl | later <;> rcases List.mem_cons.mp among with rfl | laterToo
    · rfl
    · exact first other laterToo same
    · exact (first one later same.symm).symm
    · exact alike one later other laterToo same

theorem exists_insert_iff : (∃ next, set.insert .error file = .ok next) ↔ set.Admits file := by
  have step := inserts set file .error
  generalize set.insert .error file = result at step
  cases step with
  | new absent => simp [Admits, absent]
  | same present alike => simp [Admits, present, alike]
  | refused present differs => simp [Admits, present, differs]

/-- What an insertion leaves at a path: what was there, with more names if it is the path of the file, or the file. -/
inductive Leaves (set : ArtifactSet) (file : Artifact) (path : String) : Option Artifact → Prop
  | elsewhere (apart : path ≠ file.path) : Leaves set file path (set.get? path)
  | new (here : path = file.path) (absent : set.get? path = none) : Leaves set file path (some file)
  | credited {earlier} (here : path = file.path) (present : set.get? path = some earlier)
      (alike : earlier.checksum = file.checksum) : Leaves set file path (some (earlier.credit file.generators))

theorem leaves_of_insert (inserted : set.insert .error file = .ok next) (path : String) :
    set.Leaves file path (next.get? path) := by
  have step := inserts set file .error
  rw [inserted] at step
  by_cases here : path = file.path
  · subst here
    cases step with
    | new absent =>
      rw [get?_push, absent, if_pos rfl]
      exact .new rfl absent
    | same present alike =>
      rw [get?_add present, if_pos rfl]
      exact .credited rfl present alike
  · have apart : next.get? path = set.get? path := by
      cases step with
      | new absent => rw [get?_push, if_neg (Ne.symm here), Option.or_none]
      | same present alike => rw [get?_add present, if_neg here]
    rw [apart]
    exact .elsewhere here

/-- After an insertion the set admits what it admitted before and what agrees with the new file. -/
theorem admits_insert_iff (inserted : set.insert .error file = .ok next) (other : Artifact) :
    next.Admits other ↔ set.Admits other ∧ (file.path = other.path → file.checksum = other.checksum) := by
  have admitted : set.Admits file := exists_insert_iff.mp ⟨next, inserted⟩
  have left := leaves_of_insert inserted other.path
  unfold Admits at admitted ⊢
  generalize next.get? other.path = found at left
  cases left with
  | elsewhere apart => simp [Ne.symm apart]
  | new here absent => simp [here.symm, absent]
  | credited here present alike =>
    rw [present]
    simp [here.symm, Artifact.credit, alike]

/-- Files go in, in any order, exactly when they agree with the set and with each other. -/
theorem exists_insertAll_iff : (∃ result, (set.insertAll .error files).value = .ok result) ↔
    (∀ file ∈ files, set.Admits file) ∧ Alike files := by
  induction files generalizing set with
  | nil => exact ⟨fun _ => ⟨nofun, nofun⟩, fun _ => ⟨set, rfl⟩⟩
  | cons file rest ih =>
    rw [List.forall_mem_cons, alike_cons]
    constructor
    · rintro ⟨result, inserted⟩
      obtain ⟨next, first, later⟩ := insertAll_cons_eq_ok.mp inserted
      obtain ⟨admits, alike⟩ := ih.mp ⟨result, later⟩
      have both (other : Artifact) (inside : other ∈ rest) := (admits_insert_iff first other).mp (admits other inside)
      exact ⟨⟨exists_insert_iff.mp ⟨next, first⟩, fun other inside => (both other inside).1⟩,
        fun other inside => (both other inside).2, alike⟩
    · rintro ⟨⟨admitsFile, admitsRest⟩, agrees, alike⟩
      obtain ⟨next, first⟩ := exists_insert_iff.mpr admitsFile
      have admits (other : Artifact) (inside : other ∈ rest) : next.Admits other :=
        (admits_insert_iff first other).mpr ⟨admitsRest other inside, agrees other inside⟩
      obtain ⟨result, later⟩ := ih.mpr ⟨admits, alike⟩
      exact ⟨result, insertAll_cons_eq_ok.mpr ⟨next, first, later⟩⟩

/-- The content of the file is at its path, and names the generators of the file. -/
def Keeps (set : ArtifactSet) (file : Artifact) : Prop :=
  ∃ kept, set.get? file.path = some kept ∧ kept.checksum = file.checksum ∧
    ∀ name ∈ file.generators, name ∈ kept.generators

theorem mem_credit {name : String} {artifact : Artifact} {names : List String} :
    name ∈ (artifact.credit names).generators ↔ name ∈ artifact.generators ∨ name ∈ names := by
  rw [Artifact.credit, Artifact.addNames_eq, List.mem_append, List.mem_eraseDups, List.mem_filter, decide_eq_true_eq]
  constructor
  · exact Or.imp_right And.left
  · rintro (known | new)
    · exact .inl known
    · by_cases known : name ∈ artifact.generators
      · exact .inl known
      · exact .inr ⟨new, known⟩

theorem keeps_of_insert (inserted : set.insert .error file = .ok next) : next.Keeps file := by
  have left := leaves_of_insert inserted file.path
  unfold Keeps
  generalize next.get? file.path = found at left
  cases left with
  | elsewhere apart => exact absurd rfl apart
  | new => exact ⟨file, rfl, rfl, fun _ inside => inside⟩
  | credited _ _ alike => exact ⟨_, rfl, alike, fun name inside => mem_credit.mpr (.inr inside)⟩

theorem Keeps.insert {other : Artifact} (keeps : set.Keeps file) (inserted : set.insert .error other = .ok next) :
    next.Keeps file := by
  obtain ⟨kept, present, content, named⟩ := keeps
  have left := leaves_of_insert inserted file.path
  unfold Keeps
  generalize next.get? file.path = found at left
  cases left with
  | elsewhere => exact ⟨kept, present, content, named⟩
  | new _ absent =>
    rw [absent] at present
    cases present
  | credited _ presentToo =>
    obtain rfl := Option.some.inj (present.symm.trans presentToo)
    exact ⟨_, rfl, content, fun name inside => mem_credit.mpr (.inl (named name inside))⟩

theorem keeps_of_insertAll (inserted : (set.insertAll .error files).value = .ok result) :
    ∀ file, file ∈ files ∨ set.Keeps file → result.Keeps file := by
  induction files generalizing set with
  | nil =>
    obtain rfl : set = result := Except.ok.inj inserted
    rintro file (nowhere | keeps)
    · cases nowhere
    · exact keeps
  | cons first rest ih =>
    obtain ⟨next, inserted, later⟩ := insertAll_cons_eq_ok.mp inserted
    rintro file (inside | keeps)
    · rcases List.mem_cons.mp inside with rfl | inside
      · exact ih later file (.inr (keeps_of_insert inserted))
      · exact ih later file (.inl inside)
    · exact ih later file (.inr (keeps.insert inserted))

/-- The entry has its content from this one. -/
def ComesOf (kept file : Artifact) : Prop :=
  file.path = kept.path ∧ file.text = kept.text ∧ file.checksum = kept.checksum

/-- Nothing is in the set but what was in it and what was inserted. -/
theorem origin_of_insertAll (inserted : (set.insertAll .error files).value = .ok result) {kept : Artifact}
    (found : result.get? path = some kept) :
    (∃ earlier, set.get? path = some earlier ∧ ComesOf kept earlier) ∨ ∃ file ∈ files, ComesOf kept file := by
  induction files generalizing set with
  | nil =>
    obtain rfl : set = result := Except.ok.inj inserted
    exact .inl ⟨kept, found, rfl, rfl, rfl⟩
  | cons file rest ih =>
    obtain ⟨next, first, later⟩ := insertAll_cons_eq_ok.mp inserted
    obtain ⟨earlier, present, comes⟩ | ⟨other, inside, comes⟩ := ih later
    · have left := leaves_of_insert first path
      generalize next.get? path = found at left present
      cases left with
      | elsewhere => exact .inl ⟨earlier, present, comes⟩
      | new =>
        obtain rfl := Option.some.inj present
        exact .inr ⟨file, List.mem_cons_self .., comes⟩
      | credited _ presentBefore =>
        obtain rfl := Option.some.inj present
        exact .inl ⟨_, presentBefore, comes⟩
    · exact .inr ⟨other, List.mem_cons_of_mem _ inside, comes⟩

end ResourceKinds.ArtifactSet
