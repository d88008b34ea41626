import ResourceKinds.Proofs.Artifact.Histories
import ResourceKinds.Proofs.Tables

namespace ResourceKinds

/-- Files with the position of each path among them. No position is out of bounds. -/
structure IndexedSet where
  artifacts : List Artifact
  index : Fields Nat
  collisions : List Collision
  within : ∀ path position, index.lookup path = some position → position < artifacts.length

namespace IndexedSet

def empty : IndexedSet := ⟨[], [], [], nofun⟩

def paths (set : IndexedSet) : List String := set.artifacts.map Artifact.path

def get? (set : IndexedSet) (path : String) : Option Artifact := (set.index.lookup path).bind (set.artifacts[·]?)

/-- The set without its index. -/
def plain (set : IndexedSet) : ArtifactSet := ⟨set.artifacts, set.collisions⟩

def append (set : IndexedSet) (artifact : Artifact) : IndexedSet where
  artifacts := set.artifacts ++ [artifact]
  index := set.index.insert artifact.path set.artifacts.length
  collisions := set.collisions
  within path position found := by
    rw [Table.lookup_insert] at found
    rw [List.length_append, List.length_singleton]
    split at found
    · have same := Option.some.inj found
      omega
    · have earlier := set.within path position found
      omega

def credit (set : IndexedSet) (position : Nat) (names : List String) : IndexedSet where
  artifacts := set.artifacts.modify position (·.credit names)
  index := set.index
  collisions := set.collisions
  within path position found := by
    rw [List.length_modify]
    exact set.within path position found

def record (set : IndexedSet) (collision : Collision) : IndexedSet :=
  { set with collisions := set.collisions ++ [collision] }

/-- Inserts a file. The set that comes with an error is the one that the insertion leaves behind. -/
def insert (set : IndexedSet) (policy : CollisionPolicy) (artifact : Artifact) :
    IndexedSet × Except GeneratorError Unit :=
  match found : set.index.lookup artifact.path with
  | none => (set.append artifact, .ok ())
  | some position =>
    let existing := set.artifacts.get ⟨position, set.within artifact.path position found⟩
    if existing.checksum = artifact.checksum then (set.credit position artifact.generators, .ok ())
    else
      let generators := existing.generators ++ artifact.generators
      match policy with
      | .error => (set, .error (.pathCollision artifact.path generators))
      | .warn => (set.record ⟨artifact.path, generators⟩, .ok ())

/-- The set after a history of insertions. -/
def ofHistory (history : List Insertion) : IndexedSet :=
  history.foldl (fun set insertion => (set.insert insertion.policy insertion.artifact).1) .empty

/-- The index has the position of each path, and nothing else. -/
def Coherent (set : IndexedSet) : Prop :=
  ∀ path position, set.index.lookup path = some position ↔ set.paths[position]? = some path

variable {set : IndexedSet} {policy : CollisionPolicy} {artifact existing : Artifact} {position : Nat} {path : String}

theorem insert_of_absent (absent : set.index.lookup artifact.path = none) :
    set.insert policy artifact = (set.append artifact, .ok ()) := by
  unfold insert
  split
  · rfl
  · rename_i found
    rw [absent] at found
    cases found

theorem insert_of_present (found : set.index.lookup artifact.path = some position)
    (there : set.artifacts[position]? = some existing) : set.insert policy artifact =
      if existing.checksum = artifact.checksum then (set.credit position artifact.generators, .ok ())
      else match policy with
        | .error => (set, .error (.pathCollision artifact.path (existing.generators ++ artifact.generators)))
        | .warn => (set.record ⟨artifact.path, existing.generators ++ artifact.generators⟩, .ok ()) := by
  unfold insert
  split
  · rename_i absent
    rw [found] at absent
    cases absent
  · rename_i other foundToo
    obtain rfl := Option.some.inj (found.symm.trans foundToo)
    obtain ⟨bound, same⟩ := List.getElem?_eq_some_iff.mp there
    simp only [List.get_eq_getElem, same]

/-- An insertion that ends in an error has changed nothing. -/
theorem insert_of_error {error : GeneratorError} (fails : (set.insert policy artifact).2 = .error error) :
    (set.insert policy artifact).1 = set := by
  cases found : set.index.lookup artifact.path with
  | none =>
    rw [insert_of_absent found] at fails
    cases fails
  | some position =>
    have there := List.getElem?_eq_getElem (set.within artifact.path position found)
    rw [insert_of_present found there] at fails ⊢
    split at fails
    · cases fails
    · rename_i differs
      rw [if_neg differs]
      cases policy with
      | error => rfl
      | warn => cases fails

namespace Coherent

variable (coherent : set.Coherent)

include coherent

theorem exists_at (found : set.index.lookup path = some position) :
    ∃ existing, set.artifacts[position]? = some existing ∧ existing.path = path := by
  have named := (coherent path position).mp found
  rw [paths, List.getElem?_map] at named
  exact Option.map_eq_some_iff.mp named

theorem lookup_of_at {file : Artifact} (there : set.artifacts[position]? = some file) :
    set.index.lookup file.path = some position := by
  refine (coherent file.path position).mpr ?_
  rw [paths, List.getElem?_map, there, Option.map_some]

theorem get?_eq_some {file : Artifact} : set.get? path = some file ↔ file ∈ set.artifacts ∧ file.path = path := by
  constructor
  · intro found
    obtain ⟨position, known, there⟩ := Option.bind_eq_some_iff.mp found
    obtain ⟨existing, same, named⟩ := coherent.exists_at known
    obtain rfl := Option.some.inj (there.symm.trans same)
    exact ⟨List.mem_of_getElem? there, named⟩
  · rintro ⟨inside, rfl⟩
    obtain ⟨position, there⟩ := List.mem_iff_getElem?.mp inside
    rw [get?, coherent.lookup_of_at there]
    exact there

/-- What the index leads to is what a search through the files finds. -/
theorem get?_eq (path : String) : set.get? path = set.plain.get? path := by
  cases found : set.plain.get? path with
  | none =>
    refine Option.eq_none_iff_forall_ne_some.mpr fun file known => ?_
    obtain ⟨inside, named⟩ := coherent.get?_eq_some.mp known
    exact List.find?_eq_none.mp found file inside (by simp [named])
  | some file =>
    exact coherent.get?_eq_some.mpr ⟨List.mem_of_find?_eq_some found, by simpa using List.find?_some found⟩

/-- Credit for the file at a position goes to the file of its path. -/
theorem plain_credit (found : set.index.lookup artifact.path = some position)
    (present : set.plain.get? artifact.path = some existing) :
    (set.credit position artifact.generators).plain = set.plain.add artifact := by
  have credited : set.artifacts.modify position (·.credit artifact.generators) =
      set.artifacts.map fun file => if file.path = artifact.path then file.credit artifact.generators else file := by
    refine List.ext_getElem? fun j => ?_
    rw [List.getElem?_modify, List.getElem?_map]
    cases there : set.artifacts[j]? with
    | none => rfl
    | some file =>
      have here : position = j ↔ file.path = artifact.path := by
        constructor
        · rintro rfl
          obtain ⟨existing, same, named⟩ := coherent.exists_at found
          obtain rfl := Option.some.inj (there.symm.trans same)
          exact named
        · intro named
          have known := coherent.lookup_of_at there
          rw [named, found] at known
          exact Option.some.inj known
      by_cases same : position = j
      · simp [same, here.mp same]
      · have other : file.path ≠ artifact.path := fun named => same (here.mpr named)
        simp [same, other]
  rw [ArtifactSet.add_of_present present]
  exact congrArg (ArtifactSet.mk · set.collisions) credited

theorem append (absent : set.index.lookup artifact.path = none) : (set.append artifact).Coherent := by
  intro path position
  have inside : set.paths.length = set.artifacts.length := List.length_map ..
  have extended : (set.append artifact).paths = set.paths ++ [artifact.path] := List.map_append
  have looked : (set.append artifact).index.lookup path = if path = artifact.path then some set.artifacts.length
    else set.index.lookup path := Table.lookup_insert ..
  rw [looked, extended, List.getElem?_append, inside]
  by_cases before : position < set.artifacts.length
  · rw [if_pos before, ← coherent path position]
    by_cases here : path = artifact.path
    · subst here
      rw [if_pos rfl, absent]
      simp only [Option.some.injEq, reduceCtorEq, iff_false]
      omega
    · rw [if_neg here]
  · rw [if_neg before]
    by_cases here : path = artifact.path
    · subst here
      rw [if_pos rfl, Option.some.injEq]
      constructor
      · rintro rfl
        simp
      · intro last
        have zero := (List.getElem?_eq_some_iff.mp last).1
        rw [List.length_singleton] at zero
        omega
    · rw [if_neg here]
      constructor
      · intro found
        exact absurd (set.within path position found) before
      · intro last
        obtain ⟨_, same⟩ := List.getElem?_eq_some_iff.mp last
        rw [List.getElem_singleton] at same
        exact absurd same.symm here

theorem credit (position : Nat) (names : List String) : (set.credit position names).Coherent := by
  have kept : (set.credit position names).paths = set.paths := by
    refine List.ext_getElem? fun j => ?_
    simp only [paths, IndexedSet.credit, List.getElem?_map, List.getElem?_modify]
    cases set.artifacts[j]? with
    | none => rfl
    | some file => by_cases here : position = j <;> simp [here, Artifact.credit]
  intro path other
  rw [kept]
  exact coherent path other

/-- An insertion goes as that into the plain set, since the index leads to the file that a search finds, and the index
stays coherent. -/
theorem insert (policy : CollisionPolicy) (artifact : Artifact) :
    (set.insert policy artifact).1.Coherent ∧
      (set.insert policy artifact).1.plain = set.plain.after ⟨policy, artifact⟩ ∧
      (set.insert policy artifact).2 = (set.plain.insert policy artifact).map fun _ => () := by
  have step := ArtifactSet.inserts set.plain artifact policy
  unfold ArtifactSet.after
  simp only
  generalize set.plain.insert policy artifact = result at step
  cases found : set.index.lookup artifact.path with
  | none =>
    have absent : set.plain.get? artifact.path = none := by
      rw [← coherent.get?_eq, get?, found]
      rfl
    rw [insert_of_absent found]
    cases step with
    | new => exact ⟨coherent.append found, rfl, rfl⟩
    | same present => cases absent.symm.trans present
    | recorded present => cases absent.symm.trans present
    | refused present => cases absent.symm.trans present
  | some position =>
    obtain ⟨existing, there, named⟩ := coherent.exists_at found
    have present : set.plain.get? artifact.path = some existing := by
      rw [← coherent.get?_eq, get?, found]
      exact there
    rw [insert_of_present found there]
    cases step with
    | new absent => cases absent.symm.trans present
    | same presentToo alike =>
      obtain rfl := Option.some.inj (present.symm.trans presentToo)
      rw [if_pos alike]
      exact ⟨coherent.credit _ _, coherent.plain_credit found present, rfl⟩
    | recorded presentToo differs =>
      obtain rfl := Option.some.inj (present.symm.trans presentToo)
      rw [if_neg differs]
      exact ⟨coherent, rfl, rfl⟩
    | refused presentToo differs =>
      obtain rfl := Option.some.inj (present.symm.trans presentToo)
      rw [if_neg differs]
      exact ⟨coherent, rfl, rfl⟩

end Coherent

theorem ofHistory_concat (history : List Insertion) (insertion : Insertion) : ofHistory (history ++ [insertion]) =
    ((ofHistory history).insert insertion.policy insertion.artifact).1 := by
  rw [ofHistory, List.foldl_append]
  rfl

/-- After every history the index is coherent, and the rest is the plain set of the history. -/
theorem follows (history : List Insertion) :
    (ofHistory history).Coherent ∧ (ofHistory history).plain = ArtifactSet.ofHistory history := by
  induction history using List.reverseRecOn with
  | nil => exact ⟨fun path position => ⟨nofun, nofun⟩, rfl⟩
  | append_singleton history insertion ih =>
    obtain ⟨coherent, same⟩ := ih
    obtain ⟨still, after, _⟩ := coherent.insert insertion.policy insertion.artifact
    rw [ofHistory_concat, ArtifactSet.ofHistory_concat, ← same]
    exact ⟨still, after⟩

/-- The set is the plain one to all who look files up in it or insert them, and its index is right. -/
structure Represents (set : IndexedSet) (plain : ArtifactSet) : Prop where
  same : set.plain = plain
  indexed : ∀ path position, set.index.lookup path = some position ↔ set.paths[position]? = some path
  found : ∀ path, set.get? path = plain.get? path
  inserted : ∀ policy artifact, (set.insert policy artifact).2 = (plain.insert policy artifact).map fun _ => ()

/-- What holds of the set that a history leads to. -/
structure Keeps (history : List Insertion) (set : ArtifactSet) : Prop where
  paths : set.paths = Insertion.paths history
  distinct : set.paths.Nodup
  size : set.size = ((Insertion.files history).map Artifact.path).toFinset.card
  found : ∀ path file, set.get? path = some file ↔ file ∈ set.artifacts ∧ file.path = path
  stored : ∀ path, set.get? path = Insertion.stored? history path
  collisions : set.collisions = Insertion.collisions history

/-- After every history of insertions the set has the first file of each path, in the order in which the paths came up,
with the names of all who made the same. Its content never changes. Differing files have left a collision behind where
they were only warned of; where they were refused, they have left nothing, not even in the index. -/
theorem ofHistory_keeps (history : List Insertion) :
    Keeps history (ArtifactSet.ofHistory history) ∧
    Represents (ofHistory history) (ArtifactSet.ofHistory history) ∧
    (∀ more path stored, (ArtifactSet.ofHistory history).get? path = some stored → ∃ later,
      (ArtifactSet.ofHistory (history ++ more)).get? path = some later ∧ later.text = stored.text ∧
        later.checksum = stored.checksum) ∧
    ∀ policy artifact error,
      ((ArtifactSet.ofHistory history).insert policy artifact = .error error ↔ policy = .error ∧ ∃ stored,
        (ArtifactSet.ofHistory history).get? artifact.path = some stored ∧ stored.checksum ≠ artifact.checksum ∧
          error = .pathCollision artifact.path (stored.generators ++ artifact.generators)) ∧
      (((ofHistory history).insert policy artifact).2 = .error error →
        ((ofHistory history).insert policy artifact).1 = ofHistory history) := by
  obtain ⟨coherent, same⟩ := follows history
  have tells := ArtifactSet.tells_ofHistory history
  have keeps : Keeps history (ArtifactSet.ofHistory history) :=
    ⟨tells.paths, tells.nodup, tells.size_eq, fun _ _ => tells.get?_eq_some, tells.stored, tells.collisions⟩
  have represents : Represents (ofHistory history) (ArtifactSet.ofHistory history) := by
    refine ⟨same, coherent, fun path => ?_, fun policy artifact => ?_⟩
    · rw [coherent.get?_eq, same]
    · rw [(coherent.insert policy artifact).2.2, same]
  refine ⟨keeps, represents, ?_, fun policy artifact error => ⟨ArtifactSet.insert_eq_error, insert_of_error⟩⟩
  intro more path stored found
  rw [tells.stored] at found
  rw [(ArtifactSet.tells_ofHistory (history ++ more)).stored]
  exact Insertion.stored?_append found more

def page (path text : String) (makers : List String) : Artifact := ⟨path, text, ⟨text⟩, makers⟩

/-- A page twice, one that differs from it, and another page with one that differs and is refused. -/
def pages : List Insertion :=
  [⟨.error, page "a" "x" ["m"]⟩, ⟨.warn, page "b" "y" ["n"]⟩, ⟨.error, page "a" "x" ["n", "m", "n"]⟩,
    ⟨.warn, page "a" "z" ["o"]⟩, ⟨.error, page "b" "z" ["m"]⟩]

theorem ofHistory_keeps_pages : Keeps pages (ArtifactSet.ofHistory pages) ∧
    Represents (ofHistory pages) ⟨[page "a" "x" ["m", "n"], page "b" "y" ["n"]], [⟨"a", ["m", "n", "o"]⟩]⟩ ∧
    (∃ later, (ArtifactSet.ofHistory (pages ++ pages)).get? "a" = some later ∧ later.text = "x" ∧
      later.checksum = ⟨"x"⟩) ∧
    ((ofHistory pages).insert .error (page "a" "z" ["o"])).2 = .error (.pathCollision "a" ["m", "n", "o"]) ∧
    ((ofHistory pages).insert .error (page "a" "z" ["o"])).1 = ofHistory pages := by
  obtain ⟨keeps, represents, stays, refuses⟩ := ofHistory_keeps pages
  have stored : (ArtifactSet.ofHistory pages).get? "a" = some (page "a" "x" ["m", "n"]) := rfl
  have refused : ((ofHistory pages).insert .error (page "a" "z" ["o"])).2 =
    .error (.pathCollision "a" ["m", "n", "o"]) := rfl
  exact ⟨keeps, represents, stays pages "a" _ stored, refused, (refuses .error (page "a" "z" ["o"]) _).2 refused⟩

end IndexedSet

end ResourceKinds
