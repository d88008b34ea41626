import ResourceKinds.FileTree

namespace ResourceKinds

namespace FileTree

/-- What can be at a place. -/
inductive Entry where
  | file (content : String)
  | directory
deriving DecidableEq

def top : FileTree → Entry
  | .file content => .file content
  | .directory _ => .directory

def entryAt (tree : FileTree) (place : List String) : Option Entry := (tree.get? place).map top

/-- Under a name of its own, so that every search for a place among folders uses the same proof. -/
scoped instance : LawfulBEq (List String) := inferInstance

theorem get?_of_entryAt_directory {tree : FileTree} {place : List String}
    (found : tree.entryAt place = some .directory) :
    ∃ entries, tree.get? place = some (.directory entries) := by
  obtain ⟨node, there, same⟩ := Option.map_eq_some_iff.mp found
  cases node with
  | file content => cases same
  | directory entries => exact ⟨entries, there⟩

theorem get?_append (tree : FileTree) (place more : List String) :
    tree.get? (place ++ more) = (tree.get? place).bind (·.get? more) := by
  induction place generalizing tree with
  | nil => rfl
  | cons name rest ih =>
    cases tree with
    | file content => rfl
    | directory entries =>
      simp only [List.cons_append, get?]
      cases childOf entries name with
      | none => rfl
      | some child => exact ih child

/-- What lies in something lies in a directory. -/
theorem entryAt_of_append {tree : FileTree} {place more : List String} (nonempty : more ≠ [])
    (found : tree.entryAt (place ++ more) ≠ none) : tree.entryAt place = some .directory := by
  obtain ⟨name, rest, rfl⟩ := List.exists_cons_of_ne_nil nonempty
  rw [entryAt, get?_append] at found
  rw [entryAt]
  cases there : tree.get? place with
  | none => simp [there] at found
  | some node =>
    cases node with
    | file content => simp [there, get?] at found
    | directory entries => rfl

theorem entryAt_dropLast {tree : FileTree} {place : List String} (found : tree.entryAt place = some .directory) :
    tree.entryAt place.dropLast = some .directory := by
  rcases List.eq_nil_or_concat place with rfl | ⟨parent, name, rfl⟩
  · exact found
  · rw [List.concat_eq_append] at found ⊢
    rw [List.dropLast_concat]
    exact entryAt_of_append (List.cons_ne_nil name []) (found ▸ Option.some_ne_none _)

theorem entryAt_nil {tree : FileTree} {place : List String} (found : tree.entryAt place = some .directory) :
    tree.entryAt [] = some .directory := by
  cases place with
  | nil => exact found
  | cons name rest =>
    have below : tree.entryAt ([] ++ name :: rest) ≠ none := found ▸ Option.some_ne_none _
    exact entryAt_of_append (List.cons_ne_nil name rest) below

theorem childOf_putEntry (entries : List (String × FileTree)) (name : String) (node : FileTree) (other : String) :
    childOf (putEntry entries name node) other = if other = name then some node else childOf entries other := by
  induction entries with
  | nil => simp [putEntry, childOf, eq_comm]
  | cons head rest ih =>
    obtain ⟨key, old⟩ := head
    by_cases here : key = name
    · by_cases same : other = name <;> simp_all [putEntry, childOf, eq_comm]
    · by_cases same : key = other <;> simp_all [putEntry, childOf]

/-- Nothing lies in a node that holds nothing. -/
def Leaf (node : FileTree) : Prop := ∀ name rest, node.get? (name :: rest) = none

theorem leaf_file (content : String) : (file content).Leaf := fun _ _ => rfl

theorem leaf_empty : empty.Leaf := fun _ _ => rfl

theorem entryAt_empty (place : List String) :
    empty.entryAt place = if place = [] then some .directory else none := by
  cases place with
  | nil => rfl
  | cons name rest => rfl

theorem entryAt_directory_cons (entries : List (String × FileTree)) (name : String) (rest : List String) :
    (directory entries).entryAt (name :: rest) = (childOf entries name).bind (·.entryAt rest) := by
  rw [entryAt, get?]
  cases childOf entries name <;> rfl

/-- A node put where no directory is, in one that is there, changes that place only. -/
theorem entryAt_put {tree node : FileTree} {above : List String} {name : String}
    (inside : tree.entryAt above = some .directory) (free : tree.entryAt (above ++ [name]) ≠ some .directory)
    (leaf : node.Leaf) (place : List String) :
    (tree.put (above ++ [name]) node).entryAt place =
      if place = above ++ [name] then some node.top else tree.entryAt place := by
  induction above generalizing tree place with
  | nil =>
    obtain ⟨entries, there⟩ := get?_of_entryAt_directory inside
    obtain rfl := Option.some.inj there
    have put : (directory entries).put [name] node = .directory (putEntry entries name node) := by
      cases found : childOf entries name <;> simp [FileTree.put, found]
    rw [List.nil_append, put]
    cases place with
    | nil => rfl
    | cons first rest =>
      rw [entryAt_directory_cons, entryAt_directory_cons, childOf_putEntry]
      by_cases here : first = name
      · subst here
        cases rest with
        | nil => simp [entryAt, get?]
        | cons second rest =>
          have nothing : (directory entries).entryAt ([first] ++ second :: rest) = none :=
            Decidable.byContradiction fun found => free (entryAt_of_append (List.cons_ne_nil second rest) found)
          rw [List.singleton_append, entryAt_directory_cons] at nothing
          rw [nothing]
          simp [entryAt, leaf second rest]
      · simp [here]
  | cons next above ih =>
    obtain ⟨entries, there⟩ := get?_of_entryAt_directory (entryAt_nil inside)
    obtain rfl := Option.some.inj there
    rw [entryAt_directory_cons] at inside
    obtain ⟨child, found, below⟩ := Option.bind_eq_some_iff.mp inside
    have vacant : child.entryAt (above ++ [name]) ≠ some .directory := by
      rw [List.cons_append, entryAt_directory_cons, found] at free
      exact free
    have put : (directory entries).put (next :: above ++ [name]) node =
        .directory (putEntry entries next (child.put (above ++ [name]) node)) := by
      simp [FileTree.put, found]
    rw [put]
    cases place with
    | nil => simp; rfl
    | cons first rest =>
      rw [entryAt_directory_cons, entryAt_directory_cons, childOf_putEntry]
      by_cases here : first = next
      · subst here
        simpa [found] using ih below vacant rest
      · simp [here]

section Walks

/-- Where a segment leads. -/
def move (place : List String) (segment : String) : List String :=
  if segment = ".." then place.dropLast else place ++ [segment]

/-- The places passed along the segments, both ends among them. -/
def way (place : List String) : List String → List (List String)
  | [] => [place]
  | segment :: rest => place :: way (move place segment) rest

def arrival (place segments : List String) : List String := segments.foldl move place

theorem way_concat (place segments : List String) (segment : String) :
    way place (segments ++ [segment]) = way place segments ++ [move (arrival place segments) segment] := by
  induction segments generalizing place with
  | nil => rfl
  | cons first rest ih => exact congrArg (place :: ·) (ih (move place first))

theorem arrival_concat (place segments : List String) (segment : String) :
    arrival place (segments ++ [segment]) = move (arrival place segments) segment := by
  simp [arrival]

theorem start_mem_way (place segments : List String) : place ∈ way place segments := by
  cases segments <;> exact List.mem_cons_self ..

theorem arrival_mem_way (place segments : List String) : arrival place segments ∈ way place segments := by
  induction segments generalizing place with
  | nil => exact List.mem_cons_self ..
  | cons first rest ih => exact List.mem_cons_of_mem _ (ih (move place first))

/-- Every segment can be the name of something. -/
def Named (segments : List String) : Prop := ∀ segment ∈ segments, nameFault? segment = none

/-- Every place passed is that of a directory. -/
def Passable (tree : FileTree) (places : List (List String)) : Prop :=
  ∀ place ∈ places, tree.entryAt place = some .directory

/-- Directories can be made of all places passed. -/
def Free (tree : FileTree) (places : List (List String)) : Prop :=
  ∀ place ∈ places, ∀ content, tree.entryAt place ≠ some (.file content)

theorem Passable.free {tree : FileTree} {places : List (List String)} (passable : tree.Passable places) :
    tree.Free places := by
  intro place inside content found
  cases (passable place inside).symm.trans found

theorem free_empty (places : List (List String)) : empty.Free places := by
  intro place _ content found
  rw [entryAt_empty] at found
  split at found <;> cases found

variable {tree : FileTree} {place segments : List String}

theorem walk_nil : tree.walk place [] = match tree.entryAt place with
    | some .directory => .ok place
    | some (.file _) => .error .notADirectory
    | none => .error .notFound := by
  simp only [walk, entryAt]
  cases tree.get? place with
  | none => rfl
  | some node => cases node <;> rfl

theorem walk_cons {segment : String} : tree.walk place (segment :: segments) =
    match tree.entryAt place, nameFault? segment with
    | some .directory, none => tree.walk (move place segment) segments
    | some .directory, some fault => .error fault
    | some (.file _), _ => .error .notADirectory
    | none, _ => .error .notFound := by
  simp only [walk, entryAt, move]
  cases tree.get? place with
  | none => rfl
  | some node =>
    cases node with
    | file content => rfl
    | directory entries =>
      cases nameFault? segment with
      | some fault => rfl
      | none => by_cases up : segment = ".." <;> simp [up, top]

theorem walk_eq_ok {target : List String} : tree.walk place segments = .ok target ↔
    Named segments ∧ tree.Passable (way place segments) ∧ arrival place segments = target := by
  induction segments generalizing place with
  | nil =>
    rw [walk_nil]
    cases found : tree.entryAt place with
    | none => simp [Passable, way, found]
    | some entry => cases entry <;> simp [Named, Passable, way, arrival, found]
  | cons segment rest ih =>
    rw [walk_cons]
    cases found : tree.entryAt place with
    | none => simp [Passable, way, found]
    | some entry =>
      cases entry with
      | file content => simp [Passable, way, found]
      | directory =>
        cases fault : nameFault? segment with
        | some _ => simp [Named, fault]
        | none => simp [ih, Named, Passable, way, arrival, fault, found]

/-- Where nothing is in the way, a walk ends early only because something is missing. -/
theorem walk_of_free (named : Named segments) (free : tree.Free (way place segments)) :
    tree.walk place segments = .ok (arrival place segments) ∨ tree.walk place segments = .error .notFound := by
  induction segments generalizing place with
  | nil =>
    have here := free place (start_mem_way _ _)
    rw [walk_nil]
    cases found : tree.entryAt place with
    | none => exact .inr rfl
    | some entry =>
      cases entry with
      | file content => exact absurd found (here content)
      | directory => exact .inl rfl
  | cons segment rest ih =>
    have here := free place (start_mem_way _ _)
    rw [walk_cons, named segment (List.mem_cons_self ..)]
    cases found : tree.entryAt place with
    | none => exact .inr rfl
    | some entry =>
      cases entry with
      | file content => exact absurd found (here content)
      | directory =>
        exact ih (fun other inside => named other (List.mem_cons_of_mem _ inside))
          fun other inside => free other (List.mem_cons_of_mem _ inside)

end Walks

end FileTree

end ResourceKinds
