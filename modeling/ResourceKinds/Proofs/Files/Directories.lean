import ResourceKinds.Proofs.Files.Entries
import ResourceKinds.Proofs.Result

namespace ResourceKinds

namespace FileTree

/-- From one tree to a later one, directories have appeared at some of the folders, and some of the given
files have been written where no directory was. Nothing else is different. -/
def Touched (folders : List (List String)) (written : List (List String × String)) (before after : FileTree) : Prop :=
  ∀ place, after.entryAt place = before.entryAt place ∨
    before.entryAt place = none ∧ place ∈ folders ∧ after.entryAt place = some .directory ∨
    before.entryAt place ≠ some .directory ∧
      ∃ content, (place, content) ∈ written ∧ after.entryAt place = some (.file content)

section Touched

variable {folders more : List (List String)} {written others : List (List String × String)}
  {before middle after : FileTree}

theorem Touched.refl (tree : FileTree) : Touched folders written tree tree := fun _ => .inl rfl

theorem Touched.mono (touched : Touched folders written before after) (inFolders : ∀ place ∈ folders, place ∈ more)
    (inWritten : ∀ file ∈ written, file ∈ others) : Touched more others before after := by
  intro place
  rcases touched place with same | ⟨absent, inside, made⟩ | ⟨vacant, content, inside, made⟩
  · exact .inl same
  · exact .inr (.inl ⟨absent, inFolders place inside, made⟩)
  · exact .inr (.inr ⟨vacant, content, inWritten _ inside, made⟩)

theorem Touched.trans (first : Touched folders written before middle) (later : Touched folders written middle after) :
    Touched folders written before after := by
  intro place
  have second := later place
  rcases first place with same | ⟨absent, inside, made⟩ | ⟨vacant, content, inside, made⟩
  · rwa [same] at second
  · rcases second with same | ⟨absent, _⟩ | ⟨vacant, _⟩
    · exact .inr (.inl ⟨absent, inside, same.trans made⟩)
    · cases made.symm.trans absent
    · exact absurd made vacant
  · rcases second with same | ⟨absent, _⟩ | ⟨_, found⟩
    · exact .inr (.inr ⟨vacant, content, inside, same.trans made⟩)
    · cases made.symm.trans absent
    · exact .inr (.inr ⟨vacant, found⟩)

/-- A directory stays one. -/
theorem Touched.directory (touched : Touched folders written before after) {place : List String}
    (found : before.entryAt place = some .directory) : after.entryAt place = some .directory := by
  rcases touched place with same | ⟨absent, _⟩ | ⟨vacant, _⟩
  · exact same.trans found
  · cases found.symm.trans absent
  · exact absurd found vacant

theorem Touched.passable (touched : Touched folders written before after) {places : List (List String)}
    (passable : before.Passable places) : after.Passable places :=
  fun place inside => touched.directory (passable place inside)

/-- Where only directories were made, nothing new is in the way. -/
theorem Touched.free (touched : Touched folders [] before after) {places : List (List String)}
    (free : before.Free places) : after.Free places := by
  intro place inside content found
  rcases touched place with same | ⟨_, _, made⟩ | ⟨_, _, nowhere, _⟩
  · exact free place inside content (same.symm.trans found)
  · cases found.symm.trans made
  · cases nowhere

/-- Where only directories were made, a file was there before. -/
theorem Touched.free_before (touched : Touched folders [] before after) {places : List (List String)}
    (free : after.Free places) : before.Free places := by
  intro place inside content found
  rcases touched place with same | ⟨absent, _⟩ | ⟨_, _, nowhere, _⟩
  · exact free place inside content (same.trans found)
  · cases found.symm.trans absent
  · cases nowhere

/-- All directories have been made, and nothing besides. -/
theorem Touched.entryAt_eq (touched : Touched folders [] before after) (passable : after.Passable folders)
    (place : List String) :
    after.entryAt place = if place ∈ folders then some .directory else before.entryAt place := by
  by_cases inside : place ∈ folders
  · rw [if_pos inside, passable place inside]
  · rw [if_neg inside]
    rcases touched place with same | ⟨_, among, _⟩ | ⟨_, _, nowhere, _⟩
    · exact same
    · exact absurd among inside
    · cases nowhere

end Touched

section Directories

variable {tree : FileTree} {home start : List String} {ending : PathEnd} {above : List String} {name : String}

theorem target?_concat (named : ending ≠ .dot) : tree.target? start (above ++ [name]) ending =
    (tree.walk start above).bind fun directory =>
      if name = ".." then .ok none else match nameFault? name with
      | some fault => .error fault
      | none => .ok (some (directory ++ [name])) := by
  simp only [target?, List.getLast?_concat, List.dropLast_concat, if_neg named]
  rfl

theorem target?_dot : tree.target? start (above ++ [name]) .dot =
    (tree.walk start (above ++ [name])).map fun _ => none := by
  simp only [target?, List.getLast?_concat, if_true]
  cases tree.walk start (above ++ [name]) <;> rfl

/-- The place of the last segment, where the directory above it can be reached. -/
theorem target?_of_passable (dotless : ending ≠ .dot) (named : Named above)
    (passable : tree.Passable (way start above)) : tree.target? start (above ++ [name]) ending =
      if name = ".." then .ok none else match nameFault? name with
      | some fault => .error fault
      | none => .ok (some (arrival start above ++ [name])) := by
  rw [target?_concat dotless, walk_eq_ok.mpr ⟨named, passable, rfl⟩]
  rfl

/-- A place that a path has is that of its last segment. -/
theorem target?_eq_some {place : List String} (found : tree.target? start (above ++ [name]) ending = .ok (some place)) :
    Named above ∧ tree.Passable (way start above) ∧ name ≠ ".." ∧ nameFault? name = none ∧
      place = arrival start above ++ [name] := by
  by_cases dot : ending = .dot
  · rw [dot, target?_dot] at found
    obtain ⟨_, _, impossible⟩ := map_eq_ok.mp found
    cases impossible
  · rw [target?_concat dot] at found
    obtain ⟨directory, walked, found⟩ := bind_eq_ok.mp found
    obtain ⟨named, passable, rfl⟩ := walk_eq_ok.mp walked
    split at found
    · cases found
    · rename_i notUp
      split at found
      · cases found
      · rename_i faultless
        exact ⟨named, passable, notUp, faultless, (Option.some.inj (Except.ok.inj found)).symm⟩

theorem entryAt_eq_none {place : List String} : tree.entryAt place = none ↔ tree.get? place = none := by
  simp [entryAt]

theorem isDirectoryAt_iff {segments : List String} : tree.isDirectoryAt start segments = true ↔
    Named segments ∧ tree.Passable (way start segments) := by
  unfold isDirectoryAt
  cases walked : tree.walk start segments with
  | error error =>
    refine ⟨nofun, fun ⟨named, passable⟩ => ?_⟩
    cases (walk_eq_ok.mpr ⟨named, passable, rfl⟩).symm.trans walked
  | ok target =>
    obtain ⟨named, passable, _⟩ := walk_eq_ok.mp walked
    exact ⟨fun _ => ⟨named, passable⟩, fun _ => rfl⟩

/-- One directory, which may be there already. -/
def makeLast (tree : FileTree) (start segments : List String) (ending : PathEnd) : FileTree × Except FileError Unit :=
  match tree.makeDirectory start segments ending with
  | .ok made => (made, .ok ())
  | .error error => if tree.isDirectoryAt start segments then (tree, .ok ()) else (tree, .error error)

/-- The directories above are made first when the last one cannot be made without them. -/
theorem makeDirectories_of_missing
    (missing : tree.makeDirectory start (name :: above).reverse ending = .error .notFound) :
    tree.makeDirectories start ending (name :: above) =
      match tree.makeDirectories start .name above with
      | (tree, .error error) => (tree, .error error)
      | (tree, .ok ()) => tree.makeLast start (name :: above).reverse ending := by
  rw [makeDirectories, missing]
  rfl

theorem makeDirectories_of_present
    (present : tree.makeDirectory start (name :: above).reverse ending ≠ .error .notFound) :
    tree.makeDirectories start ending (name :: above) = tree.makeLast start (name :: above).reverse ending := by
  rw [makeDirectories, makeLast]
  cases result : tree.makeDirectory start (name :: above).reverse ending with
  | ok made => rfl
  | error error =>
    cases error with
    | notFound => exact absurd result present
    | _ => rfl

theorem named_concat : Named (above ++ [name]) ↔ Named above ∧ nameFault? name = none := by
  simp [Named, or_imp, forall_and]

theorem passable_concat {place : List String} : tree.Passable (way place (above ++ [name])) ↔
    tree.Passable (way place above) ∧ tree.entryAt (move (arrival place above) name) = some .directory := by
  simp [Passable, way_concat, or_imp, forall_and]

theorem free_concat {place : List String} : tree.Free (way place (above ++ [name])) ↔
    tree.Free (way place above) ∧
      ∀ content, tree.entryAt (move (arrival place above) name) ≠ some (.file content) := by
  simp [Free, way_concat, or_imp, forall_and]

theorem move_name {place : List String} (notUp : name ≠ "..") : move place name = place ++ [name] := if_neg notUp

theorem makeDirectory_eq_ok {made : FileTree}
    (done : tree.makeDirectory start (above ++ [name]) ending = .ok made) :
    let place := arrival start above ++ [name]
    Named (above ++ [name]) ∧ tree.Passable (way start above) ∧ name ≠ ".." ∧ tree.entryAt place = none ∧
      ∀ other, made.entryAt other = if other = place then some .directory else tree.entryAt other := by
  obtain ⟨target, found, done⟩ := bind_eq_ok.mp done
  cases target with
  | none => cases done
  | some place =>
    obtain ⟨named, passable, notUp, faultless, rfl⟩ := target?_eq_some found
    cases there : tree.get? (arrival start above ++ [name]) with
    | some node =>
      simp only [there] at done
      cases done
    | none =>
      simp only [there] at done
      obtain rfl := Except.ok.inj done
      have absent := entryAt_eq_none.mpr there
      refine ⟨named_concat.mpr ⟨named, faultless⟩, passable, notUp, absent, fun other => ?_⟩
      exact entryAt_put (passable _ (arrival_mem_way _ _)) (by rw [absent]; exact nofun) leaf_empty other

/-- No directory is made at the end of a path that ends with a `.`, whether it is there or not. -/
theorem makeDirectory_dot : tree.makeDirectory start (above ++ [name]) .dot =
    (tree.walk start (above ++ [name])).bind fun _ => .error .fileExists := by
  rw [makeDirectory, target?_dot]
  cases tree.walk start (above ++ [name]) <;> rfl

section MakeLast

variable {result : FileTree × Except FileError Unit}

theorem makeLast_touched (same : tree.makeLast start (above ++ [name]) ending = result) :
    Touched (way start (above ++ [name])) [] tree result.1 := by
  unfold makeLast at same
  split at same
  · rename_i made done
    subst same
    obtain ⟨_, _, notUp, absent, entries⟩ := makeDirectory_eq_ok done
    intro place
    by_cases here : place = arrival start above ++ [name]
    · subst here
      refine .inr (.inl ⟨absent, ?_, ?_⟩)
      · rw [way_concat, move_name notUp]
        exact List.mem_append_right _ (List.mem_singleton_self _)
      · rw [entries, if_pos rfl]
    · refine .inl ?_
      rw [entries, if_neg here]
  · split at same <;> subst same <;> exact .refl tree

theorem makeLast_dot : (tree.makeLast start (above ++ [name]) .dot).1 = tree := by
  rw [makeLast, makeDirectory_dot]
  cases tree.walk start (above ++ [name]) <;> simp only [Except.bind] <;> split <;> rfl

theorem makeLast_ok {made : FileTree} (done : tree.makeLast start (above ++ [name]) ending = (made, .ok ())) :
    Named (above ++ [name]) ∧ made.Passable (way start (above ++ [name])) := by
  have touched := makeLast_touched done
  unfold makeLast at done
  split at done
  · rename_i tree' made'
    obtain ⟨rfl, _⟩ := Prod.mk.inj done
    obtain ⟨named, passable, notUp, _, entries⟩ := makeDirectory_eq_ok made'
    refine ⟨named, passable_concat.mpr ⟨touched.passable passable, ?_⟩⟩
    rw [move_name notUp, entries, if_pos rfl]
  · split at done
    · rename_i present
      obtain ⟨rfl, _⟩ := Prod.mk.inj done
      exact isDirectoryAt_iff.mp present
    · cases (Prod.mk.inj done).2

/-- Where the directories above are there and no file is in the way, the last directory is there already or is made.
Behind a `.` it has to be there. -/
theorem makeLast_of_passable (named : Named (above ++ [name])) (passable : tree.Passable (way start above))
    (free : tree.Free (way start (above ++ [name])))
    (reached : ending = .dot → tree.entryAt (arrival start (above ++ [name])) = some .directory) :
    ∃ made, tree.makeLast start (above ++ [name]) ending = (made, .ok ()) := by
  obtain ⟨namedAbove, faultless⟩ := named_concat.mp named
  have here := passable _ (arrival_mem_way _ _)
  have present (found : tree.entryAt (move (arrival start above) name) ≠ none) :
      tree.isDirectoryAt start (above ++ [name]) = true := by
    refine isDirectoryAt_iff.mpr ⟨named, passable_concat.mpr ⟨passable, ?_⟩⟩
    obtain ⟨entry, found⟩ := Option.ne_none_iff_exists'.mp found
    cases entry with
    | directory => exact found
    | file content => exact absurd found ((free_concat.mp free).2 content)
  unfold makeLast
  cases result : tree.makeDirectory start (above ++ [name]) ending with
  | ok made => exact ⟨made, rfl⟩
  | error error =>
    refine ⟨tree, if_pos (present fun absent => ?_)⟩
    by_cases dot : ending = .dot
    · rw [← arrival_concat, reached dot] at absent
      cases absent
    · by_cases up : name = ".."
      · rw [move, if_pos up, entryAt_dropLast here] at absent
        cases absent
      · rw [move_name up, entryAt_eq_none] at absent
        rw [makeDirectory, target?_of_passable dot namedAbove passable, if_neg up, faultless] at result
        simp only [bind, Except.bind, absent] at result
        cases result

end MakeLast

/-- Whether it succeeds or not, making directories adds directories on the way, and nothing else. -/
theorem makeDirectories_touched (tree : FileTree) (start : List String) (ending : PathEnd) (reversed : List String) :
    Touched (way start reversed.reverse) [] tree (tree.makeDirectories start ending reversed).1 := by
  induction reversed generalizing tree ending with
  | nil => exact .refl tree
  | cons name above ih =>
    by_cases missing : tree.makeDirectory start (name :: above).reverse ending = .error .notFound
    · rw [makeDirectories_of_missing missing]
      have first : Touched (way start (name :: above).reverse) [] tree (tree.makeDirectories start .name above).1 := by
        refine (ih tree .name).mono (fun place inside => ?_) fun _ inside => inside
        rw [List.reverse_cons, way_concat]
        exact List.mem_append_left _ inside
      split
      · rename_i middle error done
        rwa [done] at first
      · rename_i middle done
        rw [done] at first
        rw [List.reverse_cons] at first ⊢
        exact first.trans (makeLast_touched rfl)
    · rw [makeDirectories_of_present missing, List.reverse_cons]
      exact makeLast_touched rfl

/-- Behind a `.` only the directories in front are made. -/
theorem makeDirectories_dot_touched (tree : FileTree) (start reversed : List String) :
    Touched (way start reversed.reverse.dropLast) [] tree (tree.makeDirectories start .dot reversed).1 := by
  cases reversed with
  | nil => exact .refl tree
  | cons name above =>
    rw [List.reverse_cons, List.dropLast_concat]
    by_cases missing : tree.makeDirectory start (name :: above).reverse .dot = .error .notFound
    · rw [makeDirectories_of_missing missing]
      have first := makeDirectories_touched tree start .name above
      split
      · rename_i middle error done
        rwa [done] at first
      · rename_i middle done
        rw [done] at first
        rwa [List.reverse_cons, makeLast_dot]
    · rw [makeDirectories_of_present missing, List.reverse_cons, makeLast_dot]
      exact .refl tree

theorem makeDirectories_ok {reversed : List String} {made : FileTree}
    (isDirectory : tree.entryAt start = some .directory)
    (done : tree.makeDirectories start ending reversed = (made, .ok ())) :
    Named reversed.reverse ∧ made.Passable (way start reversed.reverse) := by
  cases reversed with
  | nil =>
    obtain ⟨rfl, _⟩ := Prod.mk.inj done
    exact ⟨nofun, by simpa [way, Passable] using isDirectory⟩
  | cons name above =>
    by_cases missing : tree.makeDirectory start (name :: above).reverse ending = .error .notFound
    · rw [makeDirectories_of_missing missing] at done
      split at done
      · cases (Prod.mk.inj done).2
      · rw [List.reverse_cons] at done ⊢
        exact makeLast_ok done
    · rw [makeDirectories_of_present missing, List.reverse_cons] at done
      rw [List.reverse_cons]
      exact makeLast_ok done

/-- Behind a `.` there is a directory once those in front are made: it is one of them, or was there before. -/
def Reached (tree : FileTree) (start segments : List String) : Prop :=
  arrival start segments ∈ way start segments.dropLast ∨ tree.entryAt (arrival start segments) = some .directory

/-- If making the last directory does not fail for want of those above, these are there, and behind a `.` it is there
itself. -/
theorem passable_of_present (named : Named (above ++ [name])) (free : tree.Free (way start (above ++ [name])))
    (present : tree.makeDirectory start (above ++ [name]) ending ≠ .error .notFound) :
    tree.Passable (way start above) ∧
      (ending = .dot → tree.entryAt (arrival start (above ++ [name])) = some .directory) := by
  by_cases dot : ending = .dot
  · subst dot
    rcases walk_of_free named free with walked | stopped
    · have passable := (walk_eq_ok.mp walked).2.1
      exact ⟨(passable_concat.mp passable).1, fun _ => passable _ (arrival_mem_way _ _)⟩
    · refine absurd ?_ present
      rw [makeDirectory_dot, stopped]
      rfl
  · rcases walk_of_free (named_concat.mp named).1 (free_concat.mp free).1 with walked | stopped
    · exact ⟨(walk_eq_ok.mp walked).2.1, fun isDot => absurd isDot dot⟩
    · refine absurd ?_ present
      rw [makeDirectory, target?_concat dot, stopped]
      rfl

theorem makeDirectories_of_free {reversed : List String}
    (isDirectory : tree.entryAt start = some .directory) (named : Named reversed.reverse)
    (free : tree.Free (way start reversed.reverse)) (reached : ending = .dot → tree.Reached start reversed.reverse) :
    ∃ made, tree.makeDirectories start ending reversed = (made, .ok ()) := by
  induction reversed generalizing tree ending with
  | nil => exact ⟨tree, rfl⟩
  | cons name above ih =>
    rw [List.reverse_cons] at named free reached
    have namedAbove := (named_concat.mp named).1
    have freeAbove := (free_concat.mp free).1
    by_cases missing : tree.makeDirectory start (name :: above).reverse ending = .error .notFound
    · obtain ⟨middle, done⟩ : ∃ made, tree.makeDirectories start .name above = (made, .ok ()) :=
        ih isDirectory namedAbove freeAbove nofun
      have touched := makeDirectories_touched tree start .name above
      rw [done] at touched
      have passable := (makeDirectories_ok isDirectory done).2
      rw [makeDirectories_of_missing missing, done, List.reverse_cons]
      refine makeLast_of_passable named passable (touched.free free) fun dot => ?_
      rcases reached dot with inFront | before
      · rw [List.dropLast_concat] at inFront
        exact passable _ inFront
      · exact touched.directory before
    · rw [makeDirectories_of_present missing, List.reverse_cons]
      rw [List.reverse_cons] at missing
      obtain ⟨passable, there⟩ := passable_of_present named free missing
      exact makeLast_of_passable named passable free there

/-- Where all directories are there, none is made. -/
theorem makeDirectories_of_passable {reversed : List String} (named : Named reversed.reverse)
    (passable : tree.Passable (way start reversed.reverse)) :
    tree.makeDirectories start ending reversed = (tree, .ok ()) := by
  cases reversed with
  | nil => rfl
  | cons name above =>
    have there : tree.isDirectoryAt start (name :: above).reverse = true := isDirectoryAt_iff.mpr ⟨named, passable⟩
    have refused : tree.makeDirectory start (name :: above).reverse ending = .error .fileExists := by
      rw [List.reverse_cons] at named passable ⊢
      by_cases dot : ending = .dot
      · rw [dot, makeDirectory_dot, walk_eq_ok.mpr ⟨named, passable, rfl⟩]
        rfl
      · obtain ⟨namedAbove, faultless⟩ := named_concat.mp named
        obtain ⟨passableAbove, last⟩ := passable_concat.mp passable
        rw [makeDirectory, target?_of_passable dot namedAbove passableAbove, faultless]
        by_cases up : name = ".."
        · simp [up, bind, Except.bind]
        · rw [move_name up] at last
          obtain ⟨entries, found⟩ := get?_of_entryAt_directory last
          simp [up, found, bind, Except.bind]
    rw [makeDirectories_of_present (by rw [refused]; exact nofun), makeLast, refused]
    exact if_pos there

/-- Nothing keeps the directory of a path from being made: the system takes the path, its segments can be names, and no
file is in the way. If the path ends with a `.`, the directory is not made for its sake. -/
structure Makeable (tree : FileTree) (home : List String) (path : FilePath) : Prop where
  taken : path.fault? = none
  named : Named path.segments
  free : tree.Free (way (base home path) path.segments)
  reached : path.ending = .dot → tree.Reached (base home path) path.segments

section MakePath

variable {path : FilePath} {made : FileTree}

theorem makePath_of_taken (taken : path.fault? = none) :
    tree.makePath home path = tree.makeDirectories (base home path) path.ending path.segments.reverse := by
  rw [makePath, taken]

theorem taken_of_makePath (done : tree.makePath home path = (made, .ok ())) : path.fault? = none := by
  rw [makePath] at done
  split at done
  · cases (Prod.mk.inj done).2
  · assumption

theorem makePath_touched (tree : FileTree) (home : List String) (path : FilePath) :
    Touched (way (base home path) path.segments) [] tree (tree.makePath home path).1 := by
  rw [makePath]
  split
  · exact .refl tree
  · have touched := makeDirectories_touched tree (base home path) path.ending path.segments.reverse
    rwa [List.reverse_reverse] at touched

theorem makePath_ok (isDirectory : tree.entryAt (base home path) = some .directory)
    (done : tree.makePath home path = (made, .ok ())) :
    Named path.segments ∧ made.Passable (way (base home path) path.segments) := by
  rw [makePath_of_taken (taken_of_makePath done)] at done
  have ended := makeDirectories_ok isDirectory done
  rwa [List.reverse_reverse] at ended

/-- The directory of a path is made unless something keeps it from being made. Then all directories of the path are
there, and nothing else has changed. -/
theorem makePath_succeeds_iff (isDirectory : tree.entryAt (base home path) = some .directory) :
    (∃ made, tree.makePath home path = (made, .ok ())) ↔ tree.Makeable home path := by
  constructor
  · rintro ⟨made, done⟩
    have taken := taken_of_makePath done
    have touched := makePath_touched tree home path
    obtain ⟨named, passable⟩ := makePath_ok isDirectory done
    rw [done] at touched
    refine ⟨taken, named, touched.free_before passable.free, fun dot => ?_⟩
    have few := makeDirectories_dot_touched tree (base home path) path.segments.reverse
    rw [makePath_of_taken taken, dot] at done
    rw [done, List.reverse_reverse] at few
    by_cases inFront : arrival (base home path) path.segments ∈ way (base home path) path.segments.dropLast
    · exact .inl inFront
    · rcases few (arrival (base home path) path.segments) with same | ⟨_, among, _⟩ | ⟨_, _, nowhere, _⟩
      · exact .inr (same.symm.trans (passable _ (arrival_mem_way _ _)))
      · exact absurd among inFront
      · cases nowhere
  · intro makeable
    rw [makePath_of_taken makeable.taken]
    refine makeDirectories_of_free isDirectory ?_ ?_ ?_ <;> rw [List.reverse_reverse]
    · exact makeable.named
    · exact makeable.free
    · exact makeable.reached

theorem makePath_entryAt (isDirectory : tree.entryAt (base home path) = some .directory)
    (done : tree.makePath home path = (made, .ok ())) (place : List String) :
    made.entryAt place =
      if place ∈ way (base home path) path.segments then some .directory else tree.entryAt place := by
  have touched := makePath_touched tree home path
  rw [done] at touched
  exact touched.entryAt_eq (makePath_ok isDirectory done).2 place

theorem makePath_of_passable (taken : path.fault? = none) (named : Named path.segments)
    (passable : tree.Passable (way (base home path) path.segments)) : tree.makePath home path = (tree, .ok ()) := by
  rw [makePath_of_taken taken]
  refine makeDirectories_of_passable ?_ ?_ <;> rwa [List.reverse_reverse]

end MakePath

/-- A file is written where its directory is there and it can have its name and place. -/
theorem writeFile_eq_ok {path : FilePath} (split : path.segments = above ++ [name]) {content : String}
    {after : FileTree} : tree.writeFile home path content = .ok after ↔
      path.fault? = none ∧ (Named above ∧ tree.Passable (way (base home path) above)) ∧
      (name ≠ ".." ∧ nameFault? name = none ∧ path.ending = .name ∧
        tree.entryAt (arrival (base home path) above ++ [name]) ≠ some .directory) ∧
      tree.put (arrival (base home path) above ++ [name]) (.file content) = after := by
  rw [writeFile, split, List.dropLast_concat]
  cases path.fault? with
  | some fault => simp
  | none =>
    cases ending : path.ending with
    | slash => cases walked : tree.walk (base home path) above <;> simp [bind, Except.bind]
    | dot =>
      rw [target?_dot]
      cases walked : tree.walk (base home path) (above ++ [name]) <;> simp [bind, Except.bind, Except.map]
    | name =>
      have dotless : PathEnd.name ≠ .dot := nofun
      by_cases reached : Named above ∧ tree.Passable (way (base home path) above)
      · rw [target?_of_passable dotless reached.1 reached.2, entryAt]
        by_cases up : name = ".."
        · simp [up, bind, Except.bind]
        · cases faulty : nameFault? name with
          | some fault => simp [up, bind, Except.bind]
          | none =>
            cases there : tree.get? (arrival (base home path) above ++ [name]) with
            | none => simp [reached, up, there, bind, Except.bind, pure, Except.pure]
            | some node => cases node <;> simp [reached, up, there, top, bind, Except.bind, pure, Except.pure]
      · rw [target?_concat dotless]
        cases walked : tree.walk (base home path) above with
        | error error => simp [reached, bind, Except.bind]
        | ok directory =>
          obtain ⟨named, passable, _⟩ := walk_eq_ok.mp walked
          exact absurd ⟨named, passable⟩ reached

/-- A path without segments is that of a directory. -/
theorem segments_of_writeFile {path : FilePath} {content : String} {after : FileTree}
    (done : tree.writeFile home path content = .ok after) : path.segments ≠ [] := by
  intro empty
  have nothing : tree.target? (base home path) [] path.ending = .ok none := rfl
  rw [writeFile, empty, nothing] at done
  split at done
  · cases done
  · split at done
    · obtain ⟨_, _, impossible⟩ := bind_eq_ok.mp done
      cases impossible
    · cases done

end Directories

end FileTree

end ResourceKinds
