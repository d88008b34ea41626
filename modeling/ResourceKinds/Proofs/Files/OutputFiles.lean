import ResourceKinds.Proofs.Files.Directories
import ResourceKinds.Proofs.Files.Paths

namespace ResourceKinds

open FileTree

/-- A file that is to be written. -/
structure OutputFile where
  path : FilePath
  content : String

namespace OutputFile

variable {home : List String}

def place (home : List String) (file : OutputFile) : List String := arrival (base home file.path) file.path.segments

/-- The places of the directories that the file needs. -/
def folders (home : List String) (file : OutputFile) : List (List String) :=
  way (base home file.path) file.path.segments.dropLast

/-- The system takes the path, and it is that of a file: it ends with a segment that names something. -/
structure Proper (file : OutputFile) : Prop where
  taken : file.path.fault? = none
  named : Named file.path.segments
  nonempty : file.path.segments ≠ []
  notUp : file.path.segments.getLast? ≠ some ".."
  ending : file.path.ending = .name

/-- Makes the directories that the file needs, and writes it. -/
def write (home : List String) (file : OutputFile) (tree : FileTree) : FileTree × Except FileError Unit :=
  match tree.makePath home file.path.parent with
  | (tree, .error error) => (tree, .error error)
  | (tree, .ok ()) => match tree.writeFile home file.path file.content with
    | .ok tree => (tree, .ok ())
    | .error error => (tree, .error error)

/-- Nothing keeps the file from being written to this tree. -/
structure Ready (home : List String) (tree : FileTree) (file : OutputFile) : Prop where
  proper : file.Proper
  free : tree.Free (file.folders home)
  vacant : tree.entryAt (file.place home) ≠ some .directory
  apart : file.place home ∉ file.folders home

/-- What is at each place after the file has been written. -/
def laid (home : List String) (entries : List String → Option Entry) (file : OutputFile) (place : List String) :
    Option Entry :=
  if place = file.place home then some (.file file.content)
  else if place ∈ file.folders home then some .directory
  else entries place

section Laid

variable {file : OutputFile} {place : List String} (entries : List String → Option Entry)

theorem laid_place (file : OutputFile) : laid home entries file (file.place home) = some (.file file.content) :=
  if_pos rfl

theorem laid_folder (other : place ≠ file.place home) (needed : place ∈ file.folders home) :
    laid home entries file place = some .directory := by
  rw [laid, if_neg other, if_pos needed]

theorem laid_elsewhere (other : place ≠ file.place home) (needless : place ∉ file.folders home) :
    laid home entries file place = entries place := by
  rw [laid, if_neg other, if_neg needless]

end Laid

section Concat

variable {file : OutputFile} {above : List String} {name : String}

theorem place_concat (split : file.path.segments = above ++ [name]) (notUp : name ≠ "..") :
    file.place home = arrival (base home file.path) above ++ [name] := by
  rw [place, split, arrival_concat, move_name notUp]

theorem folders_concat (split : file.path.segments = above ++ [name]) :
    file.folders home = way (base home file.path) above := by
  rw [folders, split, List.dropLast_concat]

theorem proper_concat (split : file.path.segments = above ++ [name]) : file.Proper ↔
    file.path.fault? = none ∧ Named above ∧ nameFault? name = none ∧ name ≠ ".." ∧ file.path.ending = .name := by
  constructor
  · rintro ⟨taken, named, _, notUp, ending⟩
    rw [split] at named notUp
    obtain ⟨namedAbove, faultless⟩ := named_concat.mp named
    refine ⟨taken, namedAbove, faultless, ?_, ending⟩
    simpa using notUp
  · rintro ⟨taken, named, faultless, notUp, ending⟩
    refine ⟨taken, ?_, ?_, ?_, ending⟩
    · exact split ▸ named_concat.mpr ⟨named, faultless⟩
    · simp [split]
    · simpa [split] using notUp

end Concat

theorem base_parent (home : List String) (path : FilePath) : base home path.parent = base home path := by
  rw [base, base, path.absolute_parent]

/-- The folders of a file are the directories of its parent. -/
theorem folders_eq (home : List String) (file : OutputFile) :
    way (base home file.path.parent) file.path.parent.segments = file.folders home := by
  rw [base_parent, file.path.segments_parent, folders]

section Write

variable {tree : FileTree} {file : OutputFile}

/-- A file is written in two steps: its folders are made, and then it is put in its place. -/
theorem write_eq_ok {after : FileTree} : file.write home tree = (after, .ok ()) ↔
    ∃ made, tree.makePath home file.path.parent = (made, .ok ()) ∧
      made.writeFile home file.path file.content = .ok after := by
  unfold write
  split
  · rename_i made error failed
    simp [failed]
  · rename_i made done
    cases written : made.writeFile home file.path file.content <;> simp [done, written]

/-- What is known of a file that is put in its place. -/
theorem proper_of_writeFile {made after : FileTree} (done : made.writeFile home file.path file.content = .ok after) :
    file.Proper ∧ made.Passable (file.folders home) ∧ made.entryAt (file.place home) ≠ some .directory ∧
      ∀ place, after.entryAt place =
        if place = file.place home then some (.file file.content) else made.entryAt place := by
  obtain ⟨above, name, split⟩ := (List.eq_nil_or_concat' file.path.segments).resolve_left (segments_of_writeFile done)
  obtain ⟨taken, ⟨named, passable⟩, ⟨notUp, faultless, ending, vacant⟩, rfl⟩ := (writeFile_eq_ok split).mp done
  rw [place_concat split notUp, folders_concat split]
  refine ⟨(proper_concat split).mpr ⟨taken, named, faultless, notUp, ending⟩, passable, vacant, fun place => ?_⟩
  exact entryAt_put (passable _ (arrival_mem_way _ _)) vacant (leaf_file file.content) place

theorem writeFile_of_proper {made : FileTree} (proper : file.Proper) (passable : made.Passable (file.folders home))
    (vacant : made.entryAt (file.place home) ≠ some .directory) :
    ∃ after, made.writeFile home file.path file.content = .ok after := by
  obtain ⟨above, name, split⟩ := (List.eq_nil_or_concat' file.path.segments).resolve_left proper.nonempty
  obtain ⟨taken, named, faultless, notUp, ending⟩ := (proper_concat split).mp proper
  rw [place_concat split notUp] at vacant
  rw [folders_concat split] at passable
  exact ⟨_, (writeFile_eq_ok split).mpr ⟨taken, ⟨named, passable⟩, ⟨notUp, faultless, ending, vacant⟩, rfl⟩⟩

theorem makeParent_touched (tree : FileTree) (home : List String) (file : OutputFile) :
    Touched (file.folders home) [] tree (tree.makePath home file.path.parent).1 :=
  folders_eq home file ▸ makePath_touched tree home file.path.parent

/-- Whether it is written or not, only the places of the file and its folders change. -/
theorem write_touched (tree : FileTree) (home : List String) (file : OutputFile) :
    Touched (file.folders home) [(file.place home, file.content)] tree (file.write home tree).1 := by
  have first : Touched (file.folders home) [(file.place home, file.content)] tree
      (tree.makePath home file.path.parent).1 :=
    (makeParent_touched tree home file).mono (fun _ inside => inside) nofun
  unfold write
  split
  · rename_i made error failed
    rwa [failed] at first
  · rename_i made done
    rw [done] at first
    split
    · rename_i after written
      obtain ⟨_, _, vacant, entries⟩ := proper_of_writeFile written
      refine first.trans fun place => ?_
      rw [entries]
      by_cases here : place = file.place home
      · subst here
        exact .inr (.inr ⟨vacant, file.content, List.mem_singleton_self _, if_pos rfl⟩)
      · exact .inl (if_neg here)
    · exact first

/-- The folders of a file that is ready can be made. -/
theorem Ready.makeable (ready : file.Ready home tree) : tree.Makeable home file.path.parent where
  taken := FilePath.fault?_parent ready.proper.taken
  named segment inside := by
    rw [file.path.segments_parent] at inside
    exact ready.proper.named segment (List.dropLast_subset _ inside)
  free := folders_eq home file ▸ ready.free
  reached dot := absurd dot file.path.ending_parent

/-- A file that is ready is written, and its folders with it. -/
theorem write_of_ready (isDirectory : tree.entryAt (base home file.path) = some .directory)
    (ready : file.Ready home tree) :
    ∃ after, file.write home tree = (after, .ok ()) ∧ after.entryAt = file.laid home tree.entryAt := by
  rw [← base_parent] at isDirectory
  obtain ⟨made, done⟩ := (makePath_succeeds_iff isDirectory).mpr ready.makeable
  have folders (place : List String) :
      made.entryAt place = if place ∈ file.folders home then some .directory else tree.entryAt place := by
    rw [makePath_entryAt isDirectory done place, folders_eq]
  have passable : made.Passable (file.folders home) := fun place inside => by rw [folders, if_pos inside]
  obtain ⟨after, written⟩ := writeFile_of_proper ready.proper passable (by rw [folders, if_neg ready.apart]; exact ready.vacant)
  refine ⟨after, write_eq_ok.mpr ⟨made, done, written⟩, funext fun place => ?_⟩
  rw [(proper_of_writeFile written).2.2.2 place, folders]
  rfl

/-- A file is written only if it is ready. -/
theorem ready_of_write {after : FileTree} (done : file.write home tree = (after, .ok ())) : file.Ready home tree := by
  obtain ⟨made, done, written⟩ := write_eq_ok.mp done
  obtain ⟨proper, passable, vacant, _⟩ := proper_of_writeFile written
  have touched := makeParent_touched tree home file
  rw [done] at touched
  exact ⟨proper, touched.free_before passable.free, fun found => vacant (touched.directory found),
    fun inside => vacant (passable _ inside)⟩

end Write

section WriteAll

variable {tree after : FileTree} {file : OutputFile} {files rest : List OutputFile}

/-- Writes files one after the other, up to the first failure. -/
def writeAll (home : List String) : List OutputFile → FileTree → FileTree × Except FileError Unit
  | [], tree => (tree, .ok ())
  | file :: rest, tree => match file.write home tree with
    | (tree, .error error) => (tree, .error error)
    | (tree, .ok ()) => writeAll home rest tree

theorem writeAll_append (first later : List OutputFile) : writeAll home (first ++ later) tree =
    match writeAll home first tree with
    | (tree, .error error) => (tree, .error error)
    | (tree, .ok ()) => writeAll home later tree := by
  induction first generalizing tree with
  | nil => rfl
  | cons file rest ih =>
    rw [List.cons_append, writeAll, writeAll]
    split
    · rfl
    · exact ih

/-- Files that can all be written: each to the tree as it is, and no one lies where another one needs a
directory. Their order does not matter. -/
structure Fit (home : List String) (tree : FileTree) (files : List OutputFile) : Prop where
  proper : ∀ file ∈ files, file.Proper
  free : ∀ file ∈ files, tree.Free (file.folders home)
  vacant : ∀ file ∈ files, tree.entryAt (file.place home) ≠ some .directory
  apart : ∀ file ∈ files, ∀ other ∈ files, file.place home ∉ other.folders home

theorem Fit.ready (fit : Fit home tree (file :: rest)) : file.Ready home tree :=
  have inside := List.mem_cons_self ..
  ⟨fit.proper file inside, fit.free file inside, fit.vacant file inside, fit.apart file inside file inside⟩

/-- The remaining files fit once the first one has been written. -/
theorem Fit.tail (fit : Fit home tree (file :: rest)) (written : after.entryAt = file.laid home tree.entryAt) :
    Fit home after rest := by
  have first : file ∈ file :: rest := List.mem_cons_self ..
  refine ⟨fun other inside => fit.proper other (List.mem_cons_of_mem _ inside), fun other inside => ?_,
    fun other inside => ?_, fun other inside third among =>
      fit.apart other (List.mem_cons_of_mem _ inside) third (List.mem_cons_of_mem _ among)⟩
  · intro place needed content found
    have later := List.mem_cons_of_mem file inside
    rw [written, laid] at found
    split at found
    · rename_i here
      exact fit.apart file first other later (here ▸ needed)
    · split at found
      · cases found
      · exact fit.free other later place needed content found
  · intro found
    have later := List.mem_cons_of_mem file inside
    rw [written, laid] at found
    split at found
    · cases found
    · split at found
      · rename_i needed
        exact fit.apart other later file first needed
      · exact fit.vacant other later found

/-- What the first file has changed keeps out the files that do not fit beside it. -/
theorem Fit.cons (fit : Fit home after rest) (ready : file.Ready home tree)
    (written : after.entryAt = file.laid home tree.entryAt) : Fit home tree (file :: rest) := by
  have atPlace : after.entryAt (file.place home) = some (.file file.content) := by
    rw [written, laid_place]
  have inFolders {place : List String} (needed : place ∈ file.folders home) :
      after.entryAt place = some .directory := by
    have other : place ≠ file.place home := fun here => ready.apart (here ▸ needed)
    rw [written, laid_folder _ other needed]
  have elsewhere {place : List String} (other : place ≠ file.place home) (needless : place ∉ file.folders home) :
      after.entryAt place = tree.entryAt place := by
    rw [written, laid_elsewhere _ other needless]
  refine ⟨fun other inside => ?_, fun other inside => ?_, fun other inside => ?_, fun other inside third among => ?_⟩
  · rcases List.mem_cons.mp inside with rfl | later
    · exact ready.proper
    · exact fit.proper other later
  · rcases List.mem_cons.mp inside with rfl | later
    · exact ready.free
    · intro place needed content found
      by_cases here : place = file.place home
      · exact fit.free other later place needed _ (here ▸ atPlace)
      · by_cases among : place ∈ file.folders home
        · exact ready.free place among content found
        · exact fit.free other later place needed content ((elsewhere here among).trans found)
  · rcases List.mem_cons.mp inside with rfl | later
    · exact ready.vacant
    · intro found
      by_cases here : other.place home = file.place home
      · exact ready.vacant (here ▸ found)
      · by_cases among : other.place home ∈ file.folders home
        · exact fit.vacant other later (inFolders among)
        · exact fit.vacant other later ((elsewhere here among).trans found)
  · rcases List.mem_cons.mp inside with rfl | later <;> rcases List.mem_cons.mp among with rfl | last
    · exact ready.apart
    · exact fun needed => fit.free third last _ needed _ atPlace
    · exact fun needed => fit.vacant other later (inFolders needed)
    · exact fit.apart other later third last

theorem entryAt_base (isDirectory : tree.entryAt home = some .directory) (path : FilePath) :
    tree.entryAt (base home path) = some .directory := by
  unfold base
  split
  · exact entryAt_nil isDirectory
  · exact isDirectory

/-- Writing files that fit succeeds, and leaves each of them in its place. -/
theorem writeAll_of_fit (isDirectory : tree.entryAt home = some .directory) (fit : Fit home tree files) :
    ∃ after, writeAll home files tree = (after, .ok ()) ∧ after.entryAt = files.foldl (laid home) tree.entryAt := by
  induction files generalizing tree with
  | nil => exact ⟨tree, rfl, rfl⟩
  | cons file rest ih =>
    obtain ⟨middle, written, entries⟩ := write_of_ready (entryAt_base isDirectory file.path) fit.ready
    have stays := (write_touched tree home file).directory isDirectory
    rw [written] at stays
    obtain ⟨after, others, result⟩ := ih stays (fit.tail entries)
    refine ⟨after, ?_, ?_⟩
    · rw [writeAll, written]
      exact others
    · rw [result, entries]
      rfl

/-- Where a file lies, and no other one needs a directory, there is a file in the end. -/
theorem exists_file_of_laid {place : List String} (apart : ∀ file ∈ files, place ∉ file.folders home)
    (entries : List String → Option Entry)
    (lies : (∃ content, entries place = some (.file content)) ∨ ∃ file ∈ files, file.place home = place) :
    ∃ content, files.foldl (laid home) entries place = some (.file content) := by
  induction files generalizing entries with
  | nil =>
    obtain found | ⟨_, nowhere, _⟩ := lies
    · exact found
    · cases nowhere
  | cons file rest ih =>
    obtain ⟨needed, apart⟩ := List.forall_mem_cons.mp apart
    refine ih apart _ ?_
    by_cases here : place = file.place home
    · exact .inl ⟨file.content, here ▸ laid_place entries file⟩
    · obtain ⟨content, found⟩ | ⟨other, inside, same⟩ := lies
      · exact .inl ⟨content, (laid_elsewhere entries here needed).trans found⟩
      · rcases List.mem_cons.mp inside with rfl | inside
        · exact absurd same.symm here
        · exact .inr ⟨other, inside, same⟩

/-- Writing changes nothing at a place that no file needs. -/
theorem foldl_laid_elsewhere {place : List String} (entries : List String → Option Entry)
    (needless : ∀ file ∈ files, place ≠ file.place home ∧ place ∉ file.folders home) :
    files.foldl (laid home) entries place = entries place := by
  induction files generalizing entries with
  | nil => rfl
  | cons file rest ih =>
    obtain ⟨⟨other, needless⟩, later⟩ := List.forall_mem_cons.mp needless
    rw [List.foldl_cons, ih _ later, laid_elsewhere entries other needless]

/-- Files in places of their own, none where another one needs a directory, all have their contents in the end. -/
theorem foldl_laid_of_mem (entries : List String → Option Entry) (distinct : (files.map (place home)).Nodup)
    (apart : ∀ file ∈ files, ∀ other ∈ files, file.place home ∉ other.folders home) (inside : file ∈ files) :
    files.foldl (laid home) entries (file.place home) = some (.file file.content) := by
  induction files generalizing entries with
  | nil => cases inside
  | cons first rest ih =>
    obtain ⟨alone, distinct⟩ := List.nodup_cons.mp distinct
    have later : ∀ file ∈ rest, ∀ other ∈ rest, file.place home ∉ other.folders home := fun file among other amongToo =>
      apart file (List.mem_cons_of_mem _ among) other (List.mem_cons_of_mem _ amongToo)
    rw [List.foldl_cons]
    rcases List.mem_cons.mp inside with rfl | among
    · have untouched : ∀ other ∈ rest, file.place home ≠ other.place home ∧ file.place home ∉ other.folders home :=
        fun other among => ⟨fun same => alone (same ▸ List.mem_map_of_mem among),
          apart file inside other (List.mem_cons_of_mem _ among)⟩
      rw [foldl_laid_elsewhere _ untouched, laid_place]
    · exact ih _ distinct later among

/-- A place where no file lies is a directory in the end if it was one, or if a file needs one there. -/
theorem foldl_laid_of_folder {place : List String} (entries : List String → Option Entry)
    (vacant : ∀ file ∈ files, place ≠ file.place home)
    (needed : entries place = some .directory ∨ ∃ file ∈ files, place ∈ file.folders home) :
    files.foldl (laid home) entries place = some .directory := by
  induction files generalizing entries with
  | nil =>
    obtain found | ⟨_, nowhere, _⟩ := needed
    · exact found
    · cases nowhere
  | cons file rest ih =>
    obtain ⟨other, vacant⟩ := List.forall_mem_cons.mp vacant
    refine ih _ vacant ?_
    by_cases here : place ∈ file.folders home
    · exact .inl (laid_folder entries other here)
    · obtain found | ⟨later, inside, needed⟩ := needed
      · exact .inl ((laid_elsewhere entries other here).trans found)
      · rcases List.mem_cons.mp inside with rfl | inside
        · exact absurd needed here
        · exact .inr ⟨later, inside, needed⟩

/-- Files that do not all fit are not all written. -/
theorem fit_of_writeAll (isDirectory : tree.entryAt home = some .directory)
    (done : writeAll home files tree = (after, .ok ())) : Fit home tree files := by
  induction files generalizing tree with
  | nil => exact ⟨nofun, nofun, nofun, nofun⟩
  | cons file rest ih =>
    rw [writeAll] at done
    split at done
    · cases (Prod.mk.inj done).2
    · rename_i middle written
      have ready := ready_of_write written
      obtain ⟨other, again, entries⟩ := write_of_ready (entryAt_base isDirectory file.path) ready
      obtain rfl : middle = other := congrArg Prod.fst (written.symm.trans again)
      have stays := (write_touched tree home file).directory isDirectory
      rw [written] at stays
      exact (ih stays done).cons ready entries

/-- However far the writing gets, only the places of the files and their folders change. -/
theorem writeAll_touched (tree : FileTree) (home : List String) (files : List OutputFile) :
    Touched (files.flatMap (folders home)) (files.map fun file => (file.place home, file.content)) tree
      (writeAll home files tree).1 := by
  induction files generalizing tree with
  | nil => exact .refl tree
  | cons file rest ih =>
    have first : Touched ((file :: rest).flatMap (folders home))
        ((file :: rest).map fun file => (file.place home, file.content)) tree (file.write home tree).1 := by
      refine (write_touched tree home file).mono (fun place inside => ?_) fun entry inside => ?_
      · exact List.mem_append_left _ inside
      · exact List.mem_singleton.mp inside ▸ List.mem_cons_self ..
    have later (middle : FileTree) : Touched ((file :: rest).flatMap (folders home))
        ((file :: rest).map fun file => (file.place home, file.content)) middle (writeAll home rest middle).1 := by
      refine (ih middle).mono (fun place inside => ?_) fun entry inside => ?_
      · exact List.mem_append_right _ inside
      · exact List.mem_cons_of_mem _ inside
    rw [writeAll]
    split
    · rename_i middle error failed
      rwa [failed] at first
    · rename_i middle written
      rw [written] at first
      exact first.trans (later middle)

end WriteAll

end OutputFile

end ResourceKinds
