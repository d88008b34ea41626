import ResourceKinds.Proofs.Artifact.Histories
import ResourceKinds.Proofs.Artifact.Places

namespace ResourceKinds

open FileTree

namespace FilePath

/-- Paths of files that can lie beside each other: no two are the same, and none leads through another one. -/
structure Beside (paths : List String) : Prop where
  plain : ∀ path ∈ paths, Plain path
  distinct : paths.Nodup
  apart : ∀ path ∈ paths, ∀ other ∈ paths, ¬ Below (Text.split '/' path) (Text.split '/' other)

end FilePath

namespace OutputDirectory

open FilePath (Plain Beside)

variable {output : OutputDirectory} {set : ArtifactSet} {tree : FileTree} {path text : String}

theorem segments_of_plain (plain : Plain path) :
    (output.file path text).path.segments = output.rootPath.segments ++ Text.split '/' path := by
  rw [segments_file plain.relative, FilePath.segments_of_plain plain]

/-- The place of a path below the root. -/
def placeBelow (output : OutputDirectory) (path : String) : List String := output.rootPlace ++ Text.split '/' path

theorem place_of_plain (plain : Plain path) :
    (output.file path text).place output.home = output.placeBelow path := by
  rw [place_file plain.relative, FilePath.segments_of_plain plain, arrival_of_notUp plain.notUp, placeBelow]

theorem mem_folders_of_plain (plain : Plain path) {place : List String} :
    place ∈ (output.file path text).folders output.home ↔ place ∈ output.rootFolders ∨
      ∃ front, front <+: (Text.split '/' path).dropLast ∧ place = output.rootPlace ++ front := by
  have notUp : ".." ∉ (Text.split '/' path).dropLast := fun inside => plain.notUp (List.dropLast_subset _ inside)
  rw [OutputFile.folders, base_file plain.relative, segments_of_plain plain,
    List.dropLast_append_of_ne_nil (Text.split_ne_nil '/' path), mem_way_append, mem_way_of_notUp notUp]
  rfl

theorem proper_of_plain (rootNamed : Named output.rootPath.segments) (plain : Plain path)
    (named : Named (Text.split '/' path)) (taken : (output.file path text).path.fault? = none) :
    (output.file path text).Proper := by
  have nonempty := Text.split_ne_nil '/' path
  refine ⟨taken, ?_, ?_, ?_, FilePath.ending_join_of_plain output.root plain⟩ <;> rw [segments_of_plain plain]
  · exact fun segment inside => (List.mem_append.mp inside).elim (rootNamed segment) (named segment)
  · exact List.append_ne_nil_of_right_ne_nil _ nonempty
  · rw [List.getLast?_append_of_ne_nil _ nonempty]
    exact fun up => plain.notUp (List.mem_of_getLast? up)

theorem relative_injective (same : output.relative path = output.relative text) : path = text := by
  unfold relative at same
  split at same
  · exact same
  · exact String.append_right_inj _ |>.mp same

/-- The paths below the root of all that is written for a set, with their texts. -/
def entries (output : OutputDirectory) (set : ArtifactSet) : List (String × String) :=
  (set.artifacts.map fun artifact => (output.relative artifact.path, artifact.text)) ++
    if output.listChecksums then [(checksumList, output.checksumText set)] else []

theorem files_eq (output : OutputDirectory) (set : ArtifactSet) :
    output.files set = (output.entries set).map fun entry => output.file entry.1 entry.2 := by
  rw [files, entries, List.map_append, List.map_map]
  congr 1
  split <;> rfl

/-- What is asked of the paths of a set: plain names, no path leads through another one, and none leads to or through
the list of checksums if there is to be one. The system takes them all, with the root in front of them. -/
structure Clear (output : OutputDirectory) (set : ArtifactSet) : Prop where
  plain : ∀ path ∈ set.paths, Plain (output.relative path)
  taken : ∀ file ∈ output.files set, file.path.fault? = none
  named : ∀ path ∈ set.paths, Named (Text.split '/' (output.relative path))
  apart : ∀ path ∈ set.paths, ∀ other ∈ set.paths,
    ¬ Below (Text.split '/' (output.relative path)) (Text.split '/' (output.relative other))
  unlisted : output.listChecksums = true → ∀ path ∈ set.paths,
    output.relative path ≠ checksumList ∧ ¬ Below [checksumList] (Text.split '/' (output.relative path))

/-- What is asked of the root and the file tree: no directory that is needed is a file, and no file is to be written
where a directory is or has to be for the sake of the root. Behind a `.` at its end, the root is there already or one of
the directories on the way to it. -/
structure Admits (output : OutputDirectory) (set : ArtifactSet) (tree : FileTree) : Prop where
  isDirectory : tree.entryAt output.home = some .directory
  taken : output.rootPath.fault? = none
  named : Named output.rootPath.segments
  reached : output.rootPath.ending = .dot → tree.Reached (base output.home output.rootPath) output.rootPath.segments
  free : tree.Free (output.folders set)
  vacant : ∀ file ∈ output.files set, tree.entryAt (file.place output.home) ≠ some .directory
  apart : ∀ file ∈ output.files set, file.place output.home ∉ output.rootFolders

theorem mem_entries {artifact : Artifact} (inside : artifact ∈ set.artifacts) :
    (output.relative artifact.path, artifact.text) ∈ output.entries set :=
  List.mem_append_left _ (List.mem_map.mpr ⟨artifact, inside, rfl⟩)

theorem list_mem_entries (listed : output.listChecksums = true) :
    (checksumList, output.checksumText set) ∈ output.entries set := by
  rw [entries, if_pos listed]
  exact List.mem_append_right _ (List.mem_singleton_self _)

theorem paths_entries (output : OutputDirectory) (set : ArtifactSet) : (output.entries set).map Prod.fst =
    set.paths.map output.relative ++ if output.listChecksums then [checksumList] else [] := by
  rw [entries, List.map_append, List.map_map, ArtifactSet.paths, List.map_map]
  congr 1
  split <;> rfl

theorem mem_paths_entries : path ∈ (output.entries set).map Prod.fst ↔
    (∃ own ∈ set.paths, output.relative own = path) ∨ output.listChecksums = true ∧ path = checksumList := by
  rw [paths_entries, List.mem_append, List.mem_map]
  cases output.listChecksums <;> simp

/-- The list of checksums lies in the root, where no path leads through a file. -/
theorem Clear.beside (clear : output.Clear set) (distinct : set.paths.Nodup) :
    Beside ((output.entries set).map Prod.fst) where
  plain path inside := by
    obtain ⟨own, among, rfl⟩ | ⟨_, rfl⟩ := mem_paths_entries.mp inside
    · exact clear.plain own among
    · exact plain_checksumList
  distinct := by
    rw [paths_entries]
    have own : (set.paths.map output.relative).Nodup := distinct.map fun _ _ => relative_injective
    cases listed : output.listChecksums with
    | false => simpa using own
    | true =>
      refine List.nodup_append.mpr ⟨own, List.nodup_singleton _, fun path inside other isList => ?_⟩
      obtain ⟨own, among, rfl⟩ := List.mem_map.mp inside
      rw [List.mem_singleton.mp isList]
      exact (clear.unlisted listed own among).1
  apart path inside other insideToo below := by
    obtain ⟨own, among, rfl⟩ | ⟨listed, rfl⟩ := mem_paths_entries.mp inside <;>
      obtain ⟨another, amongToo, rfl⟩ | ⟨listedToo, rfl⟩ := mem_paths_entries.mp insideToo
    · exact clear.apart own among another amongToo below
    · rw [split_checksumList] at below
      obtain ⟨rest, whole⟩ := below.1
      obtain ⟨nothing, _⟩ | ⟨same, _⟩ := List.append_eq_singleton_iff.mp whole
      · exact Text.split_ne_nil '/' _ nothing
      · exact below.2 same
    · rw [split_checksumList] at below
      exact (clear.unlisted listed another amongToo).2 below
    · exact below.2 rfl

theorem Clear.named_entries (clear : output.Clear set) (inside : path ∈ (output.entries set).map Prod.fst) :
    Named (Text.split '/' path) := by
  obtain ⟨own, among, rfl⟩ | ⟨_, rfl⟩ := mem_paths_entries.mp inside
  · exact clear.named own among
  · unfold Named
    decide

/-- Where a file that is to be written comes from, and where it goes. -/
theorem Clear.origin (clear : output.Clear set) (distinct : set.paths.Nodup) {file : OutputFile}
    (inside : file ∈ output.files set) : ∃ path text, (path, text) ∈ output.entries set ∧ Plain path ∧
      file = output.file path text ∧ file.place output.home = output.placeBelow path := by
  rw [files_eq] at inside
  obtain ⟨⟨path, text⟩, among, rfl⟩ := List.mem_map.mp inside
  have plain := (clear.beside distinct).plain path (List.mem_map_of_mem among)
  exact ⟨path, text, among, plain, rfl, place_of_plain plain⟩

/-- A set whose paths keep out of each other's way fits into a tree that admits it. -/
theorem fits_of_clear (clear : output.Clear set) (distinct : set.paths.Nodup) (admits : output.Admits set tree) :
    output.Fits set tree := by
  refine ⟨⟨admits.taken, admits.named, fun place inside => admits.free place (List.mem_append_left _ inside),
    admits.reached⟩, ?_, admits.apart⟩
  refine ⟨fun file inside => ?_, fun file inside place needed => ?_, admits.vacant,
    fun file inside other insideToo needed => ?_⟩
  · obtain ⟨path, text, among, plain, rfl, _⟩ := clear.origin distinct inside
    exact proper_of_plain admits.named plain (clear.named_entries (List.mem_map_of_mem among)) (clear.taken _ inside)
  · exact admits.free place (List.mem_append_right _ (List.mem_flatMap_of_mem inside needed))
  · obtain ⟨path, text, among, _, _, place⟩ := clear.origin distinct inside
    obtain ⟨through, content, amongToo, plain, rfl, _⟩ := clear.origin distinct insideToo
    obtain inRoot | ⟨front, begins, same⟩ := (mem_folders_of_plain plain).mp needed
    · exact admits.apart file inside inRoot
    · rw [place, placeBelow, List.append_cancel_left_eq] at same
      have below := below_of_prefix_dropLast (Text.split_ne_nil '/' through) begins
      rw [← same] at below
      exact (clear.beside distinct).apart path (List.mem_map_of_mem among) through (List.mem_map_of_mem amongToo) below

/-- What has been written can be written. -/
theorem proper_of_write {after : FileTree} (isDirectory : tree.entryAt output.home = some .directory)
    (done : output.write set tree = (after, .ok ())) {file : OutputFile} (inside : file ∈ output.files set) :
    file.Proper :=
  (fits_of_write isDirectory done).files.proper file inside

/-- A root without steps up leaves room for everything below it. -/
theorem apart_of_notUp (clear : output.Clear set) (distinct : set.paths.Nodup)
    (notUp : ".." ∉ output.rootPath.segments) :
    ∀ file ∈ output.files set, file.place output.home ∉ output.rootFolders := by
  intro file inside needed
  obtain ⟨path, _, _, _, _, place⟩ := clear.origin distinct inside
  obtain ⟨front, begins, same⟩ := (mem_way_of_notUp notUp).mp needed
  rw [place, placeBelow, rootPlace, arrival_of_notUp notUp, List.append_assoc, List.append_cancel_left_eq] at same
  have short := begins.length_le
  have long := List.length_pos_iff.mpr (Text.split_ne_nil '/' path)
  rw [← same, List.length_append] at short
  omega

/-- In an empty directory there is nothing in the way. -/
theorem admits_empty (clear : output.Clear set) (distinct : set.paths.Nodup) (atTop : output.home = [])
    (taken : output.rootPath.fault? = none) (named : Named output.rootPath.segments)
    (notUp : ".." ∉ output.rootPath.segments) (notDot : output.rootPath.ending ≠ .dot) :
    output.Admits set .empty where
  isDirectory := by rw [atTop]; rfl
  taken := taken
  named := named
  reached endsWithDot := absurd endsWithDot notDot
  free := free_empty _
  vacant file inside found := by
    obtain ⟨path, _, _, _, _, place⟩ := clear.origin distinct inside
    have nonempty : output.placeBelow path ≠ [] := List.append_ne_nil_of_right_ne_nil _ (Text.split_ne_nil '/' path)
    rw [place, entryAt_empty, if_neg nonempty] at found
    cases found
  apart := apart_of_notUp clear distinct notUp

theorem places_distinct (beside : Beside ((output.entries set).map Prod.fst)) :
    ((output.files set).map (OutputFile.place output.home)).Nodup := by
  have places : (output.files set).map (OutputFile.place output.home) =
      ((output.entries set).map Prod.fst).map output.placeBelow := by
    rw [files_eq, List.map_map, List.map_map]
    exact List.map_congr_left fun entry inside => place_of_plain (beside.plain _ (List.mem_map_of_mem inside))
  rw [places]
  exact beside.distinct.map fun _ _ same => Text.eq_of_split_eq (List.append_cancel_left same)

/-- After a set has been written, what it consists of is in its places, around them are directories, and everything
else is as before. -/
theorem laid_of_clear (clear : output.Clear set) (distinct : set.paths.Nodup) (admits : output.Admits set tree) :
    (∀ entry ∈ output.entries set, output.laid set tree (output.placeBelow entry.1) = some (.file entry.2)) ∧
      (∀ place ∈ output.folders set, output.laid set tree place = some .directory) ∧
      ∀ place, place ∉ output.folders set → (∀ entry ∈ output.entries set, place ≠ output.placeBelow entry.1) →
        output.laid set tree place = tree.entryAt place := by
  have beside := clear.beside distinct
  have apart := (fits_of_clear clear distinct admits).files.apart
  have placeOf (entry) (inside : entry ∈ output.entries set) :
      (output.file entry.1 entry.2).place output.home = output.placeBelow entry.1 :=
    place_of_plain (beside.plain _ (List.mem_map_of_mem inside))
  have isFile (entry) (inside : entry ∈ output.entries set) : output.file entry.1 entry.2 ∈ output.files set := by
    rw [files_eq]
    exact List.mem_map_of_mem inside
  refine ⟨fun entry inside => ?_, fun place needed => ?_, fun place needless elsewhere => ?_⟩
  · rw [← placeOf entry inside]
    exact OutputFile.foldl_laid_of_mem _ (places_distinct beside) apart (isFile entry inside)
  · have vacant : ∀ file ∈ output.files set, place ≠ file.place output.home := by
      rintro file inside rfl
      rcases List.mem_append.mp needed with inRoot | around
      · exact admits.apart file inside inRoot
      · obtain ⟨other, among, around⟩ := List.mem_flatMap.mp around
        exact apart file inside other among around
    refine OutputFile.foldl_laid_of_folder _ vacant ?_
    rcases List.mem_append.mp needed with inRoot | around
    · exact .inl (if_pos inRoot)
    · exact .inr (List.mem_flatMap.mp around)
  · obtain ⟨outside, apartFrom⟩ := not_or.mp (mt List.mem_append.mpr needless)
    have untouched : ∀ file ∈ output.files set,
        place ≠ file.place output.home ∧ place ∉ file.folders output.home := by
      intro file inside
      obtain ⟨path, text, among, _, _, lies⟩ := clear.origin distinct inside
      exact ⟨fun same => elsewhere (path, text) among (same.trans lies),
        fun around => apartFrom (List.mem_flatMap_of_mem inside around)⟩
    exact (OutputFile.foldl_laid_elsewhere _ untouched).trans (if_neg outside)

/-- The lines of the list of checksums. -/
def checksumLines (output : OutputDirectory) (set : ArtifactSet) : List String :=
  (set.artifacts.map output.checksumLine).mergeSort fun a b => !decide (b < a)

theorem checksumLines_perm (output : OutputDirectory) (set : ArtifactSet) :
    (output.checksumLines set).Perm (set.artifacts.map output.checksumLine) := List.mergeSort_perm ..

theorem checksumLines_sorted (output : OutputDirectory) (set : ArtifactSet) :
    (output.checksumLines set).Pairwise (· ≤ ·) := by
  have comes (a b : String) : (!decide (b < a)) = true ↔ a ≤ b := by
    rw [Bool.not_eq_true', decide_eq_false_iff_not, String.not_lt]
  have sorted : (output.checksumLines set).Pairwise fun a b => (!decide (b < a)) = true := by
    refine List.pairwise_mergeSort (fun a b c lower upper => ?_) (fun a b => ?_) _
    · exact (comes a c).mpr (String.le_trans ((comes a b).mp lower) ((comes b c).mp upper))
    · rw [Bool.or_eq_true, comes, comes]
      exact String.le_total a b
  exact sorted.imp fun {a b} => (comes a b).mp

/-- Each line of a list that is not empty is followed by a line break. -/
theorem toList_checksumText (nonempty : set.artifacts ≠ []) : (output.checksumText set).toList =
    ((output.checksumLines set).map String.toList).flatMap (· ++ ['\n']) := by
  have listed : output.checksumLines set ≠ [] := fun nothing => by
    have perm := output.checksumLines_perm set
    rw [nothing] at perm
    exact nonempty (List.map_eq_nil_iff.mp perm.nil_eq.symm)
  obtain ⟨front, last, lines⟩ := (List.eq_nil_or_concat _).resolve_left listed
  rw [List.concat_eq_append] at lines
  have text : output.checksumText set = "\n".intercalate (output.checksumLines set) ++ "\n" := rfl
  rw [text, lines, String.toList_append, String.toList_intercalate, List.map_append, List.map_singleton]
  have joined := Text.intercalate_append_cons '\n' (front.map String.toList) last.toList []
  rw [List.flatMap_nil, List.append_nil] at joined
  rw [List.flatMap_append, List.flatMap_singleton, ← List.append_assoc, ← joined]
  rfl

theorem checksumText_eq_join (nonempty : set.artifacts ≠ []) :
    output.checksumText set = String.join ((output.checksumLines set).map (· ++ "\n")) := by
  rw [← String.toList_inj, toList_checksumText nonempty, String.toList_join, List.flatMap_map, List.flatMap_map]
  refine List.flatMap_congr fun line _ => ?_
  rw [String.toList_append]
  rfl

theorem split_checksumText (nonempty : set.artifacts ≠ [])
    (plain : ∀ line ∈ output.checksumLines set, '\n' ∉ line.toList) :
    Text.split '\n' (output.checksumText set) = output.checksumLines set ++ [""] := by
  have chars : ∀ piece ∈ (output.checksumLines set).map String.toList, '\n' ∉ piece := by
    intro piece inside
    obtain ⟨line, among, rfl⟩ := List.mem_map.mp inside
    exact plain line among
  rw [Text.split, toList_checksumText nonempty, Text.splitChars_flatMap chars]
  simp [Function.comp_def]

/-- A set has the checksums that its files came with. -/
theorem checksum_ofHistory {history : List Insertion}
    (verified : ∀ file ∈ Insertion.files history, file.checksum = .ofText file.text) {artifact : Artifact}
    (inside : artifact ∈ (ArtifactSet.ofHistory history).artifacts) : artifact.checksum = .ofText artifact.text := by
  have tells := ArtifactSet.tells_ofHistory history
  have stored := (tells.stored artifact.path).symm.trans (tells.get?_eq_some.mpr ⟨inside, rfl⟩)
  obtain ⟨first, found, _, text, checksum⟩ := Insertion.first_of_stored? stored
  rw [checksum, text]
  exact verified first (List.mem_of_find?_eq_some found)

/-- A set whose paths keep out of each other's way is written whole to a tree that admits it. Afterwards each file is in
its place, the directories around the files are there, and nothing else is different. The list of checksums has a line
for each file, with the checksum of what is stored at the path that the line names. -/
theorem write_overlays {history : List Insertion} (clear : output.Clear (.ofHistory history))
    (admits : output.Admits (.ofHistory history) tree) :
    let set := ArtifactSet.ofHistory history
    ∃ after, output.write set tree = (after, .ok ()) ∧
      (∀ artifact ∈ set.artifacts,
        after.entryAt (output.placeBelow (output.relative artifact.path)) = some (.file artifact.text)) ∧
      (output.listChecksums = true →
        after.entryAt (output.rootPlace ++ [checksumList]) = some (.file (output.checksumText set))) ∧
      (∀ place ∈ output.folders set, after.entryAt place = some .directory) ∧
      (∀ place, place ∉ output.folders set →
        (∀ artifact ∈ set.artifacts, place ≠ output.placeBelow (output.relative artifact.path)) →
        (output.listChecksums = true → place ≠ output.rootPlace ++ [checksumList]) →
        after.entryAt place = tree.entryAt place) ∧
      (set.artifacts ≠ [] → ∃ lines : List String, lines.Perm (set.artifacts.map output.checksumLine) ∧
        lines.Pairwise (· ≤ ·) ∧ output.checksumText set = String.join (lines.map (· ++ "\n")) ∧
        ((∀ line ∈ lines, '\n' ∉ line.toList) → Text.split '\n' (output.checksumText set) = lines ++ [""])) ∧
      ((∀ file ∈ Insertion.files history, file.checksum = .ofText file.text) → ∀ artifact ∈ set.artifacts,
        ∃ stored, after.entryAt (output.placeBelow (output.relative artifact.path)) = some (.file stored) ∧
          output.checksumLine artifact = (Checksum.ofText stored).hex ++ "  " ++ output.relative artifact.path) := by
  intro set
  have distinct : set.paths.Nodup := (ArtifactSet.tells_ofHistory history).nodup
  obtain ⟨after, written, laid⟩ := write_of_fits admits.isDirectory (fits_of_clear clear distinct admits)
  obtain ⟨files, folders, elsewhere⟩ := laid_of_clear clear distinct admits
  rw [← laid] at files folders elsewhere
  have own : ∀ artifact ∈ set.artifacts,
      after.entryAt (output.placeBelow (output.relative artifact.path)) = some (.file artifact.text) :=
    fun artifact inside => files (output.relative artifact.path, artifact.text) (mem_entries inside)
  refine ⟨after, written, own, fun listed => ?_, folders, fun place needless others unlisted => ?_, fun nonempty => ?_,
    fun verified artifact inside => ?_⟩
  · have found := files (checksumList, output.checksumText set) (list_mem_entries listed)
    rwa [placeBelow, split_checksumList] at found
  · refine elsewhere place needless fun entry inside => ?_
    obtain ⟨own, among, same⟩ | ⟨listed, same⟩ := mem_paths_entries.mp (List.mem_map_of_mem (f := Prod.fst) inside)
    · obtain ⟨artifact, isOwn, rfl⟩ := List.mem_map.mp among
      rw [← same]
      exact others artifact isOwn
    · rw [same, placeBelow, split_checksumList]
      exact unlisted listed
  · exact ⟨output.checksumLines set, output.checksumLines_perm set, output.checksumLines_sorted set,
      checksumText_eq_join nonempty, split_checksumText nonempty⟩
  · exact ⟨artifact.text, own artifact inside, by rw [checksumLine, checksum_ofHistory verified inside]⟩

def shopHistory : List Insertion :=
  [⟨.error, .ofText "crd/desks.dev.json" "DESKS"⟩, ⟨.error, .ofText "conversions.json" "[]"⟩]

def shopOutput : OutputDirectory := .make [] "out" "gen/" true

theorem clear_shop : shopOutput.Clear (.ofHistory shopHistory) := by
  have paths : (ArtifactSet.ofHistory shopHistory).paths = ["crd/desks.dev.json", "conversions.json"] :=
    (ArtifactSet.tells_ofHistory shopHistory).paths
  refine ⟨?_, ?_, ?_, ?_, fun _ => ?_⟩
  · rw [paths]; decide
  · decide +kernel
  · rw [paths]; unfold Named; decide
  · rw [paths]; decide
  · rw [paths]; decide

theorem ofHistory_shop : ArtifactSet.ofHistory shopHistory =
    ⟨[.ofText "crd/desks.dev.json" "DESKS", .ofText "conversions.json" "[]"], []⟩ := rfl

theorem write_overlays_shop : ∃ (after : FileTree) (lines : List String),
    shopOutput.write (.ofHistory shopHistory) .empty = (after, .ok ()) ∧
      after.entryAt ["out", "gen", "crd", "desks.dev.json"] = some (.file "DESKS") ∧
      after.entryAt ["out", "gen", "conversions.json"] = some (.file "[]") ∧
      after.entryAt ["out", "checksums.sha256"] = some (.file (String.join (lines.map (· ++ "\n")))) ∧
      lines.Perm [(Checksum.ofText "DESKS").hex ++ "  " ++ "gen/crd/desks.dev.json",
        (Checksum.ofText "[]").hex ++ "  " ++ "gen/conversions.json"] := by
  have distinct : (ArtifactSet.ofHistory shopHistory).paths.Nodup := (ArtifactSet.tells_ofHistory shopHistory).nodup
  have admits : shopOutput.Admits (.ofHistory shopHistory) .empty :=
    admits_empty clear_shop distinct rfl (by decide +kernel) (by unfold Named; decide) (by decide) (by decide)
  obtain ⟨after, written, own, listed, -, -, listing, -⟩ := write_overlays clear_shop admits
  have nonempty : (ArtifactSet.ofHistory shopHistory).artifacts ≠ [] := by simp [ofHistory_shop]
  obtain ⟨lines, perm, -, text, -⟩ := listing nonempty
  have stored := listed rfl
  rw [text] at stored
  rw [ofHistory_shop] at own perm
  have inCrd : shopOutput.placeBelow (shopOutput.relative "crd/desks.dev.json") =
      ["out", "gen", "crd", "desks.dev.json"] := by decide
  have inGen : shopOutput.placeBelow (shopOutput.relative "conversions.json") =
      ["out", "gen", "conversions.json"] := by decide
  have first := own (.ofText "crd/desks.dev.json" "DESKS") (.head _)
  have second := own (.ofText "conversions.json" "[]") (.tail _ (.head _))
  simp only [Artifact.ofText, inCrd, inGen] at first second
  exact ⟨after, lines, written, first, second, stored, perm⟩

def letters (count : Nat) : String := String.ofList (List.replicate count 'a')

/-- Each segment of the path can be a file name, and the path is too long all the same. -/
def longPath : String := "/".intercalate (List.replicate 25 (letters 200))

theorem slash_notMem_letters (count : Nat) : '/' ∉ (letters count).toList := by
  rw [letters, String.toList_ofList, List.mem_replicate]
  exact fun same => absurd same.2 (by decide)

theorem split_letters (count : Nat) : Text.split '/' (letters count) = [letters count] := by
  have alone := Text.split_intercalate_slash (List.cons_ne_nil (letters count) [])
    (List.forall_mem_singleton.mpr (slash_notMem_letters count))
  rwa [String.intercalate_singleton] at alone

theorem split_longPath : Text.split '/' longPath = List.replicate 25 (letters 200) :=
  Text.split_intercalate_slash (by simp) fun _ inside => List.eq_of_mem_replicate inside ▸ slash_notMem_letters 200

theorem plain_letters : Plain (letters 256) := by
  rw [Plain, split_letters]
  decide +kernel

theorem plain_longPath : Plain longPath := by
  intro piece inside
  rw [split_longPath] at inside
  rw [List.eq_of_mem_replicate inside]
  decide +kernel

theorem named_longPath : Named (Text.split '/' longPath) := by
  intro piece inside
  rw [split_longPath] at inside
  rw [List.eq_of_mem_replicate inside]
  decide +kernel

/-- In an empty directory, and with plain paths, there can still be something in the way. The list of checksums of no
files has an empty line; a path with a NUL byte, a name that is too long and a path that is too long are refused; a root
that goes in and out of a directory needs one where a file is to lie; and a root that is not there cannot be made behind
a `.`. -/
theorem plain_commits_go_wrong :
    (∀ places, FileTree.empty.Free places) ∧
    (∀ place, FileTree.empty.entryAt place = some .directory → place = []) ∧
    (∃ after, (make [] "out" "" true).write .empty .empty = (after, .ok ()) ∧
      after.entryAt ["out", checksumList] = some (.file "\n")) ∧
    (Plain "a\x00b" ∧
      ((make [] "out" "" false).write ⟨[.ofText "a\x00b" "A"], []⟩ .empty).2 = .error .nulInName) ∧
    (Plain (letters 256) ∧
      ((make [] "out" "" false).write ⟨[.ofText (letters 256) "A"], []⟩ .empty).2 ≠ .ok ()) ∧
    ((Plain longPath ∧ Named (Text.split '/' longPath)) ∧
      ((make [] "out" "" false).write ⟨[.ofText longPath "A"], []⟩ .empty).2 ≠ .ok ()) ∧
    (Plain "x" ∧ ((make [] "x/.." "" false).write ⟨[.ofText "x" "A"], []⟩ .empty).2 = .error .isADirectory) ∧
    (Plain "x" ∧ ((make [] "out/." "" false).write ⟨[.ofText "x" "A"], []⟩ .empty).2 = .error .notFound) := by
  refine ⟨free_empty, fun place found => ?_, ⟨.directory [("out", .directory [(checksumList, .file "\n")])], ?_, rfl⟩,
    ⟨by decide, by decide +kernel⟩, ⟨plain_letters, fun done => ?_⟩, ⟨⟨plain_longPath, named_longPath⟩, fun done => ?_⟩,
    ⟨by decide, by decide +kernel⟩, by decide, by decide +kernel⟩
  · rw [entryAt_empty] at found
    split at found
    · assumption
    · cases found
  · have text : (make [] "out" "" true).checksumText .empty = "\n" := by simp [checksumText, ArtifactSet.empty]
    simp only [write, text]
    with_unfolding_all rfl
  · have named : Named ((make [] "out" "" false).file (letters 256) "A").path.segments :=
      (proper_of_write rfl (Prod.ext rfl done) (.head _)).named
    rw [segments_of_plain plain_letters, split_letters] at named
    exact absurd (named (letters 256) (List.mem_append_right _ (.head _))) (by decide +kernel)
  · have taken := FilePath.fault?_of_join (proper_of_write rfl (Prod.ext rfl done) (.head _)).taken
    have short : longPath.utf8ByteSize ≤ FilePath.sizeLimit := (FilePath.fault?_eq_none.mp taken).2
    exact absurd short (by decide +kernel)

end OutputDirectory

end ResourceKinds
