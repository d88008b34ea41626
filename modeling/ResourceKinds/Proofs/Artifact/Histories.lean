import Mathlib.Data.Finset.Card
import Mathlib.Data.List.Induction
import ResourceKinds.Proofs.Artifact.Insertion
import ResourceKinds.Proofs.Result

namespace ResourceKinds

/-- Each item with those before it. -/
def eachAfter {α : Type} (before : List α) : List α → List (List α × α)
  | [] => []
  | item :: rest => (before, item) :: eachAfter (before ++ [item]) rest

theorem eachAfter_concat {α : Type} (before items : List α) (item : α) :
    eachAfter before (items ++ [item]) = eachAfter before items ++ [(before ++ items, item)] := by
  induction items generalizing before with
  | nil => simp [eachAfter]
  | cons first rest ih => simp [eachAfter, ih]

namespace Artifact

/-- Names that are added come after those that are there, each of them once. -/
theorem addNames_eq (names more : List String) :
    addNames names more = names ++ (more.filter (· ∉ names)).eraseDups := by
  induction more generalizing names with
  | nil => simp [addNames]
  | cons name rest ih =>
    rw [addNames, ih]
    by_cases known : name ∈ names
    · have kept : names.contains name = true := by simpa using known
      rw [if_pos kept, List.filter_cons_of_neg (by simpa using known)]
    · have new : ¬ names.contains name = true := by simpa using known
      have others : (rest.filter (· ∉ names ++ [name])) =
          (rest.filter (· ∉ names)).filter fun other => !other == name := by
        rw [List.filter_filter]
        refine List.filter_congr fun other _ => ?_
        rw [Bool.eq_iff_iff]
        simp [and_comm]
      rw [if_neg new, others, List.filter_cons_of_pos (by simpa using known), List.eraseDups_cons, List.append_assoc,
        List.singleton_append]

theorem addNames_append (names more others : List String) :
    addNames names (more ++ others) = addNames (addNames names more) others := by
  induction more generalizing names with
  | nil => rfl
  | cons name rest ih => exact ih _

end Artifact

/-- A file that is inserted under a policy. -/
structure Insertion where
  policy : CollisionPolicy
  artifact : Artifact
deriving DecidableEq

namespace Insertion

variable (history : List Insertion) (path : String)

def files : List Artifact := history.map Insertion.artifact

/-- The first file that was inserted at the path. -/
def first? : Option Artifact := (files history).find? (·.path = path)

/-- The generators of the files of this path and content. -/
def makers (first : Artifact) : List String :=
  ((files history).filter fun file => file.path = first.path ∧ file.checksum = first.checksum).flatMap
    Artifact.generators

/-- What the history has brought to the path: the first file, with the names of all that made the same after its own. -/
def stored? : Option Artifact :=
  (first? history path).map fun first => { first with
    generators := first.generators ++ ((makers history first).filter (· ∉ first.generators)).eraseDups }

/-- The collision that an insertion after the history has to record. -/
def collision? (history : List Insertion) (insertion : Insertion) : Option Collision :=
  (stored? history insertion.artifact.path).bind fun stored =>
    if insertion.policy = .warn ∧ stored.checksum ≠ insertion.artifact.checksum then
      some ⟨insertion.artifact.path, stored.generators ++ insertion.artifact.generators⟩
    else none

variable {history path} {first : Artifact} {insertion : Insertion}

theorem stored?_eq_credit : stored? history path =
    (first? history path).map fun first => first.credit (makers history first) := by
  simp only [stored?, Artifact.credit, Artifact.addNames_eq]

theorem first?_concat : first? (history ++ [insertion]) path =
    (first? history path).or (if insertion.artifact.path = path then some insertion.artifact else none) := by
  rw [first?, files, List.map_append, List.find?_append]
  congr 1
  by_cases here : insertion.artifact.path = path <;> simp [here]

theorem exists_first?_iff : (∃ first, first? history path = some first) ↔ path ∈ (files history).map Artifact.path := by
  rw [← Option.isSome_iff_exists, first?, List.find?_isSome, List.mem_map]
  simp

theorem path_of_first? (found : first? history path = some first) : first.path = path := by
  simpa using List.find?_some found

theorem first_of_stored? {stored : Artifact} (found : stored? history path = some stored) :
    ∃ first, first? history path = some first ∧ stored.path = first.path ∧ stored.text = first.text ∧
      stored.checksum = first.checksum := by
  obtain ⟨first, inserted, rfl⟩ := Option.map_eq_some_iff.mp found
  exact ⟨first, inserted, rfl, rfl, rfl⟩

theorem makers_concat : makers (history ++ [insertion]) first = makers history first ++
    if insertion.artifact.path = first.path ∧ insertion.artifact.checksum = first.checksum then
      insertion.artifact.generators else [] := by
  rw [makers, files, List.map_append, List.filter_append, List.flatMap_append]
  congr 1
  split
  · rename_i same
    simp [same]
  · rename_i different
    simp [different]

theorem makers_of_new (new : first? history first.path = none) : makers history first = [] := by
  have nobody : (files history).filter (fun file => file.path = first.path ∧ file.checksum = first.checksum) = [] := by
    refine List.filter_eq_nil_iff.mpr fun file inside same => ?_
    exact List.find?_eq_none.mp new file inside (by simpa using (of_decide_eq_true same).1)
  rw [makers, nobody, List.flatMap_nil]

/-- A new file is stored as it is. -/
theorem stored?_new (new : first? history insertion.artifact.path = none) :
    stored? (history ++ [insertion]) insertion.artifact.path = some insertion.artifact := by
  have known : insertion.artifact.generators.filter (· ∉ insertion.artifact.generators) = [] := by simp
  rw [stored?, first?_concat, new, if_pos rfl, Option.none_or, Option.map_some, makers_concat, makers_of_new new,
    if_pos ⟨rfl, rfl⟩, List.nil_append, known, List.eraseDups_nil, List.append_nil]

/-- Another file of the same content adds the names of its generators. -/
theorem stored?_same (found : first? history insertion.artifact.path = some first)
    (same : insertion.artifact.checksum = first.checksum) :
    stored? (history ++ [insertion]) insertion.artifact.path =
      (stored? history insertion.artifact.path).map (·.credit insertion.artifact.generators) := by
  have path := path_of_first? found
  rw [stored?_eq_credit, stored?_eq_credit, first?_concat, found, Option.some_or, Option.map_some, Option.map_some,
    Option.map_some, makers_concat, if_pos ⟨path.symm, same⟩]
  simp only [Artifact.credit, Artifact.addNames_append]

/-- A file changes nothing elsewhere. -/
theorem stored?_of_ne (elsewhere : insertion.artifact.path ≠ path) :
    stored? (history ++ [insertion]) path = stored? history path := by
  rw [stored?_eq_credit, stored?_eq_credit, first?_concat, if_neg elsewhere, Option.or_none]
  refine Option.map_congr fun first found => ?_
  have other : ¬ (insertion.artifact.path = first.path ∧ insertion.artifact.checksum = first.checksum) :=
    fun same => elsewhere (same.1.trans (path_of_first? found))
  rw [makers_concat, if_neg other, List.append_nil]

/-- A file of another content changes nothing at all. -/
theorem stored?_of_differs (found : first? history insertion.artifact.path = some first)
    (differs : first.checksum ≠ insertion.artifact.checksum) (path : String) :
    stored? (history ++ [insertion]) path = stored? history path := by
  by_cases here : insertion.artifact.path = path
  · subst here
    have other : ¬ (insertion.artifact.path = first.path ∧ insertion.artifact.checksum = first.checksum) :=
      fun same => differs same.2.symm
    rw [stored?_eq_credit, stored?_eq_credit, first?_concat, found, Option.some_or, Option.map_some, Option.map_some,
      makers_concat, if_neg other, List.append_nil]
  · exact stored?_of_ne here

/-- The paths of a history in the order in which they first occur. -/
def paths (history : List Insertion) : List String := ((files history).map Artifact.path).eraseDups

/-- The collisions that a history has to record, each at its insertion. -/
def collisions (history : List Insertion) : List Collision :=
  (eachAfter [] history).filterMap fun step => collision? step.1 step.2

theorem paths_concat : paths (history ++ [insertion]) =
    paths history ++ if insertion.artifact.path ∈ (files history).map Artifact.path then []
      else [insertion.artifact.path] := by
  have extended : (files (history ++ [insertion])).map Artifact.path =
    (files history).map Artifact.path ++ [insertion.artifact.path] := by simp [files]
  rw [paths, extended, eraseDups_concat, paths]

theorem paths_new (new : first? history insertion.artifact.path = none) :
    paths (history ++ [insertion]) = paths history ++ [insertion.artifact.path] := by
  have absent : insertion.artifact.path ∉ (files history).map Artifact.path := by
    rw [← exists_first?_iff, new]
    exact nofun
  rw [paths_concat, if_neg absent]

theorem paths_known (found : first? history insertion.artifact.path = some first) :
    paths (history ++ [insertion]) = paths history := by
  have present : insertion.artifact.path ∈ (files history).map Artifact.path := exists_first?_iff.mp ⟨first, found⟩
  rw [paths_concat, if_pos present, List.append_nil]

theorem collisions_concat :
    collisions (history ++ [insertion]) = collisions history ++ (collision? history insertion).toList := by
  rw [collisions, eachAfter_concat, List.filterMap_append, List.nil_append, collisions]
  cases recorded : collision? history insertion <;> simp [recorded]

/-- What has been stored at a path keeps its content, whatever is inserted later. -/
theorem stored?_append {stored : Artifact} (found : stored? history path = some stored) (more : List Insertion) :
    ∃ later, stored? (history ++ more) path = some later ∧ later.text = stored.text ∧
      later.checksum = stored.checksum := by
  obtain ⟨first, inserted, _, text, checksum⟩ := first_of_stored? found
  have still : first? (history ++ more) path = some first := by
    unfold first? at inserted ⊢
    rw [files, List.map_append, List.find?_append, ← files, inserted, Option.some_or]
  rw [stored?, still]
  exact ⟨_, rfl, text.symm, checksum.symm⟩

end Insertion

namespace ArtifactSet

/-- What an insertion does with a file, which goes by what is at the path of the file. -/
inductive Inserts (set : ArtifactSet) (artifact : Artifact) : CollisionPolicy → Except GeneratorError ArtifactSet → Prop
  | new {policy} (absent : set.get? artifact.path = none) :
      Inserts set artifact policy (.ok ⟨set.artifacts ++ [artifact], set.collisions⟩)
  | same {policy earlier} (present : set.get? artifact.path = some earlier)
      (alike : earlier.checksum = artifact.checksum) : Inserts set artifact policy (.ok (set.add artifact))
  | recorded {earlier} (present : set.get? artifact.path = some earlier)
      (differs : earlier.checksum ≠ artifact.checksum) : Inserts set artifact .warn
        (.ok { set with
          collisions := set.collisions ++ [⟨artifact.path, earlier.generators ++ artifact.generators⟩] })
  | refused {earlier} (present : set.get? artifact.path = some earlier)
      (differs : earlier.checksum ≠ artifact.checksum) : Inserts set artifact .error
        (.error (.pathCollision artifact.path (earlier.generators ++ artifact.generators)))

theorem inserts (set : ArtifactSet) (artifact : Artifact) (policy : CollisionPolicy) :
    Inserts set artifact policy (set.insert policy artifact) := by
  cases present : set.get? artifact.path with
  | none =>
    rw [insert_new policy present]
    exact .new present
  | some earlier =>
    by_cases alike : earlier.checksum = artifact.checksum
    · have same : set.insert policy artifact = .ok (set.add artifact) := by
        simp only [ArtifactSet.insert, claimants?, present, if_pos alike]
      rw [same]
      exact .same present alike
    · have claimed : set.claimants? artifact = some (earlier.generators ++ artifact.generators) := by
        simp only [claimants?, present, if_neg alike]
      unfold ArtifactSet.insert
      rw [claimed]
      cases policy with
      | error => exact .refused present alike
      | warn => exact .recorded present alike

/-- Only a file of other content than the one at its path is refused, and only under the policy that refuses. -/
theorem insert_eq_error {set : ArtifactSet} {artifact : Artifact} {policy : CollisionPolicy} {error : GeneratorError} :
    set.insert policy artifact = .error error ↔ policy = .error ∧ ∃ earlier, set.get? artifact.path = some earlier ∧
      earlier.checksum ≠ artifact.checksum ∧
      error = .pathCollision artifact.path (earlier.generators ++ artifact.generators) := by
  have step := inserts set artifact policy
  generalize set.insert policy artifact = result at step
  cases step with
  | new absent => simp [absent]
  | same present alike => simp [present, alike]
  | recorded => simp
  | refused present differs =>
    constructor
    · rintro ⟨⟩
      exact ⟨rfl, _, present, differs, rfl⟩
    · rintro ⟨_, other, presentToo, _, rfl⟩
      obtain rfl := Option.some.inj (present.symm.trans presentToo)
      rfl

/-- The set after an insertion, also one that is refused. -/
def after (set : ArtifactSet) (insertion : Insertion) : ArtifactSet :=
  match set.insert insertion.policy insertion.artifact with
  | .ok next => next
  | .error _ => set

/-- The set after a history of insertions. -/
def ofHistory (history : List Insertion) : ArtifactSet := history.foldl after .empty

/-- The history tells all about the set. -/
structure Tells (history : List Insertion) (set : ArtifactSet) : Prop where
  paths : set.paths = Insertion.paths history
  stored : ∀ path, set.get? path = Insertion.stored? history path
  collisions : set.collisions = Insertion.collisions history

variable {history : List Insertion} {set : ArtifactSet} {artifact earlier : Artifact}

theorem ofHistory_concat (history : List Insertion) (insertion : Insertion) :
    ofHistory (history ++ [insertion]) = (ofHistory history).after insertion := by
  rw [ofHistory, List.foldl_append]
  rfl

theorem get?_push (path : String) : get? ⟨set.artifacts ++ [artifact], set.collisions⟩ path =
    (set.get? path).or (if artifact.path = path then some artifact else none) := by
  rw [get?, List.find?_append]
  congr 1
  by_cases here : artifact.path = path <;> simp [here]

theorem add_of_present (present : set.get? artifact.path = some earlier) : set.add artifact =
    ⟨set.artifacts.map fun file => if file.path = artifact.path then file.credit artifact.generators else file,
      set.collisions⟩ := by
  simp only [add, present]

theorem get?_add (present : set.get? artifact.path = some earlier) (path : String) : (set.add artifact).get? path =
    if path = artifact.path then some (earlier.credit artifact.generators) else set.get? path := by
  have kept : ((fun file : Artifact => decide (file.path = path)) ∘ fun file =>
      if file.path = artifact.path then file.credit artifact.generators else file) =
        fun file => decide (file.path = path) := by
    funext file
    simp only [Function.comp_apply]
    split <;> rfl
  have found : (set.add artifact).get? path = (set.get? path).map fun file =>
      if file.path = artifact.path then file.credit artifact.generators else file := by
    rw [add_of_present present, get?, List.find?_map, kept]
    rfl
  rw [found]
  by_cases here : path = artifact.path
  · have path : earlier.path = artifact.path := by simpa using List.find?_some present
    rw [here, present, if_pos rfl, Option.map_some, if_pos path]
  · rw [if_neg here]
    cases other : set.get? path with
    | none => rfl
    | some file =>
      have named : file.path = path := by simpa using List.find?_some other
      rw [Option.map_some, if_neg (named ▸ here)]

theorem paths_add (present : set.get? artifact.path = some earlier) : (set.add artifact).paths = set.paths := by
  rw [add_of_present present, paths, List.map_map]
  refine List.map_congr_left fun file _ => ?_
  simp only [Function.comp_apply]
  split <;> rfl

theorem mem_paths_insert {policy : CollisionPolicy} {next : ArtifactSet} (inserted : set.insert policy artifact = .ok next) :
    ∀ path ∈ next.paths, path ∈ set.paths ∨ path = artifact.path := by
  have step := inserts set artifact policy
  rw [inserted] at step
  intro path inside
  cases step with
  | new absent =>
    rw [paths, List.map_append] at inside
    exact (List.mem_append.mp inside).imp_right List.mem_singleton.mp
  | same present alike =>
    rw [paths_add present] at inside
    exact .inl inside
  | recorded present differs => exact .inl inside

/-- No path is in a set but those of the files that were inserted. -/
theorem mem_paths_insertAll {policy : CollisionPolicy} {files : List Artifact} {result : ArtifactSet}
    (inserted : (set.insertAll policy files).value = .ok result) :
    ∀ path ∈ result.paths, path ∈ set.paths ∨ ∃ file ∈ files, file.path = path := by
  induction files generalizing set with
  | nil =>
    obtain rfl : set = result := Except.ok.inj inserted
    exact fun path inside => .inl inside
  | cons file rest ih =>
    obtain ⟨next, first, later⟩ := insertAll_cons_eq_ok.mp inserted
    intro path inside
    obtain known | ⟨other, among, same⟩ := ih later path inside
    · obtain before | rfl := mem_paths_insert first path known
      · exact .inl before
      · exact .inr ⟨file, List.mem_cons_self .., rfl⟩
    · exact .inr ⟨other, List.mem_cons_of_mem _ among, same⟩

theorem tells_empty : Tells [] .empty where
  paths := rfl
  stored _ := rfl
  collisions := rfl

namespace Tells

open Insertion (first? stored? collision? files)

theorem first?_of_absent (tells : Tells history set) {path : String} (absent : set.get? path = none) :
    first? history path = none :=
  Option.map_eq_none_iff.mp ((tells.stored path).symm.trans absent)

theorem first?_of_present (tells : Tells history set) {path : String} (present : set.get? path = some earlier) :
    ∃ first, first? history path = some first ∧ earlier.checksum = first.checksum := by
  obtain ⟨first, found, _, _, checksum⟩ := Insertion.first_of_stored? ((tells.stored path).symm.trans present)
  exact ⟨first, found, checksum⟩

/-- After a file that differs from the one at its path, the history tells the same files as before. -/
theorem of_differs (tells : Tells history set) {insertion : Insertion}
    (present : set.get? insertion.artifact.path = some earlier)
    (differs : earlier.checksum ≠ insertion.artifact.checksum) :
    set.paths = Insertion.paths (history ++ [insertion]) ∧
      ∀ path, set.get? path = stored? (history ++ [insertion]) path := by
  obtain ⟨first, found, content⟩ := tells.first?_of_present present
  have noted := Insertion.stored?_of_differs found (content ▸ differs)
  constructor
  · rw [tells.paths, Insertion.paths_known found]
  · intro path
    rw [tells.stored, noted]

/-- An insertion is told by the history that ends with it. -/
theorem after (tells : Tells history set) (insertion : Insertion) :
    Tells (history ++ [insertion]) (set.after insertion) := by
  have step := inserts set insertion.artifact insertion.policy
  unfold ArtifactSet.after
  generalize set.insert insertion.policy insertion.artifact = result at step
  generalize stated : insertion.policy = policy at step
  cases step with
  | new absent =>
    have new := tells.first?_of_absent absent
    have quiet : collision? history insertion = none := by
      simp [collision?, ← tells.stored, absent]
    refine ⟨?_, fun path => ?_, ?_⟩
    · rw [Insertion.paths_new new, ← tells.paths, ArtifactSet.paths, List.map_append]
      rfl
    · rw [get?_push, tells.stored]
      by_cases here : insertion.artifact.path = path
      · subst here
        rw [Insertion.stored?_new new, ← tells.stored, absent, if_pos rfl, Option.none_or]
      · rw [Insertion.stored?_of_ne here, if_neg here, Option.or_none]
    · rw [Insertion.collisions_concat, quiet, Option.toList_none, List.append_nil, ← tells.collisions]
  | same present alike =>
    obtain ⟨first, found, content⟩ := tells.first?_of_present present
    have quiet : collision? history insertion = none := by
      simp [collision?, ← tells.stored, present, alike]
    refine ⟨?_, fun path => ?_, ?_⟩
    · rw [paths_add present, Insertion.paths_known found, tells.paths]
    · rw [get?_add present]
      by_cases here : insertion.artifact.path = path
      · subst here
        rw [Insertion.stored?_same found (alike.symm.trans content), ← tells.stored, present, if_pos rfl,
          Option.map_some]
      · rw [Insertion.stored?_of_ne here, if_neg fun same => here same.symm, tells.stored]
    · rw [Insertion.collisions_concat, quiet, Option.toList_none, List.append_nil, ← tells.collisions,
        add_of_present present]
  | recorded present differs =>
    obtain ⟨paths, stored⟩ := tells.of_differs present differs
    refine ⟨paths, stored, ?_⟩
    rw [Insertion.collisions_concat, ← tells.collisions]
    simp [collision?, ← tells.stored, present, stated, differs]
  | refused present differs =>
    obtain ⟨paths, stored⟩ := tells.of_differs present differs
    have quiet : collision? history insertion = none := by
      simp [collision?, ← tells.stored, present, stated]
    refine ⟨paths, stored, ?_⟩
    rw [Insertion.collisions_concat, quiet, Option.toList_none, List.append_nil, ← tells.collisions]

variable {path : String} {file : Artifact} (tells : Tells history set)

include tells

theorem nodup : set.paths.Nodup := by
  rw [tells.paths]
  exact nodup_eraseDups _

/-- A search for a path finds the file that has it. -/
theorem get?_eq_some : set.get? path = some file ↔ file ∈ set.artifacts ∧ file.path = path := by
  constructor
  · intro found
    exact ⟨List.mem_of_find?_eq_some found, by simpa using List.find?_some found⟩
  · rintro ⟨inside, named⟩
    cases found : set.get? path with
    | none => exact absurd named (by simpa using List.find?_eq_none.mp found file inside)
    | some other =>
      have otherInside : other ∈ set.artifacts := List.mem_of_find?_eq_some found
      have otherNamed : other.path = path := by simpa using List.find?_some found
      exact congrArg some (List.inj_on_of_nodup_map tells.nodup otherInside inside (otherNamed.trans named.symm))

theorem size_eq : set.size = ((Insertion.files history).map Artifact.path).toFinset.card := by
  have counted : set.paths.toFinset = ((Insertion.files history).map Artifact.path).toFinset := by
    ext path
    rw [tells.paths, List.mem_toFinset, List.mem_toFinset, Insertion.paths, List.mem_eraseDups]
  rw [← counted, List.toFinset_card_of_nodup tells.nodup]
  exact (List.length_map ..).symm

end Tells

/-- Every history tells the set that it leads to. What an insertion does goes by the insertions before it. -/
theorem tells_ofHistory (history : List Insertion) : Tells history (ofHistory history) := by
  induction history using List.reverseRecOn with
  | nil => exact tells_empty
  | append_singleton history insertion ih =>
    rw [ofHistory_concat]
    exact ih.after insertion

end ArtifactSet

end ResourceKinds
