import ResourceKinds.Generator.Pipeline
import ResourceKinds.Proofs.Artifact.Insertion
import ResourceKinds.Proofs.Files.OutputFiles
import ResourceKinds.Proofs.Files.Paths

namespace ResourceKinds

open FileTree

namespace OutputDirectory

variable {output : OutputDirectory} {set : ArtifactSet} {tree after : FileTree}

def rootPath (output : OutputDirectory) : FilePath := .ofString output.root

/-- The places of the root directory and of those that it lies in. -/
def rootFolders (output : OutputDirectory) : List (List String) :=
  way (base output.home output.rootPath) output.rootPath.segments

def file (output : OutputDirectory) (path text : String) : OutputFile :=
  ⟨.ofString (FilePath.join output.root path), text⟩

/-- All that is written for a set, in this order. -/
def files (output : OutputDirectory) (set : ArtifactSet) : List OutputFile :=
  (set.artifacts.map fun artifact => output.file (output.relative artifact.path) artifact.text) ++
    if output.listChecksums then [output.file checksumList (output.checksumText set)] else []

/-- A set that can be written: the root can be made, all files fit, and none of them lies where the root needs
a directory. -/
structure Fits (output : OutputDirectory) (set : ArtifactSet) (tree : FileTree) : Prop where
  root : tree.Makeable output.home output.rootPath
  files : OutputFile.Fit output.home tree (output.files set)
  apart : ∀ file ∈ output.files set, file.place output.home ∉ output.rootFolders

/-- What is at each place after the set has been written. -/
def laid (output : OutputDirectory) (set : ArtifactSet) (tree : FileTree) : List String → Option Entry :=
  (output.files set).foldl (OutputFile.laid output.home) fun place =>
    if place ∈ output.rootFolders then some .directory else tree.entryAt place

theorem base_file {path text : String} (relative : path.toList.head? ≠ some '/') :
    base output.home (output.file path text).path = base output.home output.rootPath := by
  rw [base, file, FilePath.absolute_join relative]
  rfl

theorem segments_file {path text : String} (relative : path.toList.head? ≠ some '/') :
    (output.file path text).path.segments = output.rootPath.segments ++ (FilePath.ofString path).segments :=
  FilePath.segments_join relative

theorem writeFile_eq_write (path text : String) (tree : FileTree) :
    output.writeFile path text tree = (output.file path text).write output.home tree := rfl

theorem writeFiles_eq_writeAll (artifacts : List Artifact) (tree : FileTree) :
    output.writeFiles artifacts tree = OutputFile.writeAll output.home
      (artifacts.map fun artifact => output.file (output.relative artifact.path) artifact.text) tree := by
  induction artifacts generalizing tree with
  | nil => rfl
  | cons artifact rest ih =>
    simp only [writeFiles, List.map_cons, OutputFile.writeAll, writeFile_eq_write]
    cases (output.file (output.relative artifact.path) artifact.text).write output.home tree with
    | mk made result =>
      cases result with
      | error error => rfl
      | ok => exact ih made

theorem plain_checksumList : FilePath.Plain checksumList := by decide

theorem split_checksumList : Text.split '/' checksumList = [checksumList] := by decide

/-- The list of checksums is written like the other files: the root that it lies in is there. -/
theorem writeAll_checksumList (text : String) (taken : output.rootPath.fault? = none)
    (named : Named output.rootPath.segments) (passable : tree.Passable output.rootFolders) :
    OutputFile.writeAll output.home [output.file checksumList text] tree =
      match tree.writeFile output.home (output.file checksumList text).path text with
      | .ok tree => (tree, .ok ())
      | .error error => (tree, .error error) := by
  have relative := plain_checksumList.relative
  have segments : (output.file checksumList text).path.segments = output.rootPath.segments ++ [checksumList] := by
    rw [segments_file relative, FilePath.segments_of_plain plain_checksumList, split_checksumList]
  have folders : (output.file checksumList text).folders output.home = output.rootFolders := by
    rw [OutputFile.folders_concat segments, base_file relative, rootFolders]
  have made : tree.makePath output.home (output.file checksumList text).path.parent = (tree, .ok ()) := by
    obtain ⟨rest, whole⟩ := FilePath.exists_text_parent_join output.root plain_checksumList split_checksumList
    refine makePath_of_passable (FilePath.fault?_of_append taken whole) ?_ ?_
    · rwa [FilePath.segments_parent, segments, List.dropLast_concat]
    · rwa [OutputFile.folders_eq, folders]
  have content : (output.file checksumList text).content = text := rfl
  rw [OutputFile.writeAll, OutputFile.write, made, content]
  cases written : tree.writeFile output.home (output.file checksumList text).path text <;>
    simp only [written, OutputFile.writeAll]

/-- Once the root is made, what is left is to write one file after the other. -/
theorem write_eq_writeAll (isDirectory : tree.entryAt output.home = some .directory) {made : FileTree}
    (done : tree.makePath output.home output.rootPath = (made, .ok ())) :
    output.write set tree = OutputFile.writeAll output.home (output.files set) made := by
  have isRoot := OutputFile.entryAt_base isDirectory output.rootPath
  have makeable := (makePath_succeeds_iff isRoot).mp ⟨made, done⟩
  have passable : made.Passable output.rootFolders := (makePath_ok isRoot done).2
  have remains := (OutputFile.writeAll_touched made output.home
    (set.artifacts.map fun artifact => output.file (output.relative artifact.path) artifact.text)).passable passable
  have root : FilePath.ofString output.root = output.rootPath := rfl
  rw [write, root, done, files, OutputFile.writeAll_append, ← writeFiles_eq_writeAll]
  rw [← writeFiles_eq_writeAll] at remains
  cases written : output.writeFiles set.artifacts made with
  | mk middle result =>
    rw [written] at remains
    cases result with
    | error error => simp only [written]
    | ok =>
      simp only [written]
      by_cases listed : output.listChecksums = true
      · simp only [listed, if_true]
        exact (writeAll_checksumList _ makeable.taken makeable.named remains).symm
      · simp only [listed, Bool.false_eq_true, if_false]
        rfl

/-- All places at which writing the set can make a directory. -/
def folders (output : OutputDirectory) (set : ArtifactSet) : List (List String) :=
  output.rootFolders ++ (output.files set).flatMap (OutputFile.folders output.home)

/-- The files of the set with their places. -/
def contents (output : OutputDirectory) (set : ArtifactSet) : List (List String × String) :=
  (output.files set).map fun file => (file.place output.home, file.content)

/-- The root directory changes nothing but its own places, so the files fit after it is made just if they fit
before and leave these alone. -/
theorem fits_iff {made : FileTree} (isDirectory : tree.entryAt output.home = some .directory)
    (done : tree.makePath output.home output.rootPath = (made, .ok ())) :
    output.Fits set tree ↔ OutputFile.Fit output.home made (output.files set) := by
  have isRoot := OutputFile.entryAt_base isDirectory output.rootPath
  have makeable := (makePath_succeeds_iff isRoot).mp ⟨made, done⟩
  have entries (place : List String) :
      made.entryAt place = if place ∈ output.rootFolders then some .directory else tree.entryAt place :=
    makePath_entryAt isRoot done place
  constructor
  · intro fits
    refine ⟨fits.files.proper, fun file inside place needed content found => ?_, fun file inside found => ?_,
      fits.files.apart⟩
    · rw [entries] at found
      split at found
      · cases found
      · exact fits.files.free file inside place needed content found
    · rw [entries, if_neg (fits.apart file inside)] at found
      exact fits.files.vacant file inside found
  · intro fit
    have apart (file) (inside : file ∈ output.files set) : file.place output.home ∉ output.rootFolders :=
      fun needed => fit.vacant file inside ((entries _).trans (if_pos needed))
    refine ⟨makeable, ⟨fit.proper, fun file inside place needed content found => ?_, fun file inside found => ?_,
      fit.apart⟩, apart⟩
    · by_cases among : place ∈ output.rootFolders
      · exact makeable.free place among content found
      · exact fit.free file inside place needed content ((entries place).trans ((if_neg among).trans found))
    · exact fit.vacant file inside ((entries _).trans ((if_neg (apart file inside)).trans found))

/-- A set that fits is written, every file in its place. -/
theorem write_of_fits (isDirectory : tree.entryAt output.home = some .directory) (fits : output.Fits set tree) :
    ∃ after, output.write set tree = (after, .ok ()) ∧ after.entryAt = output.laid set tree := by
  have isRoot := OutputFile.entryAt_base isDirectory output.rootPath
  obtain ⟨made, done⟩ := (makePath_succeeds_iff isRoot).mpr fits.root
  have stays : made.entryAt output.home = some .directory := by
    have touched := makePath_touched tree output.home output.rootPath
    rw [done] at touched
    exact touched.directory isDirectory
  obtain ⟨after, written, entries⟩ := OutputFile.writeAll_of_fit stays ((fits_iff isDirectory done).mp fits)
  refine ⟨after, (write_eq_writeAll isDirectory done).trans written, ?_⟩
  have root : made.entryAt = fun place =>
      if place ∈ output.rootFolders then some .directory else tree.entryAt place :=
    funext fun place => makePath_entryAt isRoot done place
  rw [entries, root]
  rfl

/-- A set that does not fit is not written to its end. -/
theorem fits_of_write (isDirectory : tree.entryAt output.home = some .directory)
    (done : output.write set tree = (after, .ok ())) : output.Fits set tree := by
  cases made : tree.makePath output.home output.rootPath with
  | mk middle result =>
    cases result with
    | error error =>
      have root : FilePath.ofString output.root = output.rootPath := rfl
      rw [write, root, made] at done
      cases (Prod.mk.inj done).2
    | ok =>
      rw [write_eq_writeAll isDirectory made] at done
      have touched := makePath_touched tree output.home output.rootPath
      rw [made] at touched
      exact (fits_iff isDirectory made).mpr (OutputFile.fit_of_writeAll (touched.directory isDirectory) done)

/-- However far the writing gets, nothing is different but at the places of the set. -/
theorem write_touched (isDirectory : tree.entryAt output.home = some .directory) :
    Touched (output.folders set) (output.contents set) tree (output.write set tree).1 := by
  have first : Touched (output.folders set) (output.contents set) tree
      (tree.makePath output.home output.rootPath).1 :=
    (makePath_touched tree output.home output.rootPath).mono (fun _ inside => List.mem_append_left _ inside) nofun
  cases made : tree.makePath output.home output.rootPath with
  | mk middle result =>
    rw [made] at first
    cases result with
    | error error =>
      have root : FilePath.ofString output.root = output.rootPath := rfl
      rw [write, root, made]
      exact first
    | ok =>
      rw [write_eq_writeAll isDirectory made]
      have later := (OutputFile.writeAll_touched middle output.home (output.files set)).mono
        (fun _ inside => List.mem_append_right output.rootFolders inside) fun _ inside => inside
      exact first.trans later

end OutputDirectory

namespace Pipeline

variable {m : Type → Type} [Monad m] [MonadLiftT Logged m] {ι : Type}

/-- How a commit ends. A run that fails, by a generator, a collision or a cancellation, leaves the file tree as
it is. A set that fits is written whole. A set that does not fit is refused at the first file that cannot be
written: what was written before stays, and nothing is different elsewhere. -/
theorem runAndCommit_outcomes (pipeline : Pipeline m ι) (inputs : List ι) (output : OutputDirectory) (tree : FileTree)
    (isDirectory : tree.entryAt output.home = some .directory) :
    ∃ commit : ArtifactSet → FileTree × Except Error ArtifactSet,
      pipeline.runAndCommit inputs output.writer tree = (do
        match ← (pipeline.run inputs).run with
        | .error error => return (tree, .error (.generator error))
        | .ok set => return commit set) ∧
      ∀ set,
        (output.Fits set tree → ∃ after, commit set = (after, .ok set) ∧ after.entryAt = output.laid set tree) ∧
        (¬ output.Fits set tree → ∃ after error, commit set = (after, .error (.file error)) ∧
          Touched (output.folders set) (output.contents set) tree after) := by
  refine ⟨fun set => ((output.writer.write set tree).1, (output.writer.write set tree).2.map fun _ => set), ?_,
    fun set => ⟨fun fits => ?_, fun misfit => ?_⟩⟩
  · rfl
  · obtain ⟨after, written, entries⟩ := output.write_of_fits isDirectory fits
    refine ⟨after, ?_, entries⟩
    simp [OutputDirectory.writer, written, Except.mapError, Except.map]
  · have touched : Touched (output.folders set) (output.contents set) tree (output.write set tree).1 :=
      OutputDirectory.write_touched isDirectory
    cases written : output.write set tree with
    | mk after result =>
      rw [written] at touched
      cases result with
      | error error =>
        refine ⟨after, error, ?_, touched⟩
        simp [OutputDirectory.writer, written, Except.mapError, Except.map]
      | ok => exact absurd (OutputDirectory.fits_of_write isDirectory written) misfit

/-- A batch in which one file lies where another one needs a directory. -/
def shelves : Pipeline Logged Unit :=
  .ofGenerators [⟨"shelves", .oneToMany fun _ => pure [.ofText "shelf" "A", .ofText "shelf/box" "B"]⟩]

def shelvesOutput : OutputDirectory := .make [] "out" "" false

theorem runAndCommit_outcomes_shelves :
    FileTree.empty.entryAt shelvesOutput.home = some .directory ∧
    ∃ commit : ArtifactSet → FileTree × Except Error ArtifactSet,
      shelves.runAndCommit [()] shelvesOutput.writer .empty = (do
        match ← (shelves.run [()]).run with
        | .error error => return (.empty, .error (.generator error))
        | .ok set => return commit set) ∧
      ∀ set,
        (shelvesOutput.Fits set .empty → ∃ after, commit set = (after, .ok set) ∧
          after.entryAt = shelvesOutput.laid set .empty) ∧
        (¬ shelvesOutput.Fits set .empty → ∃ after error, commit set = (after, .error (.file error)) ∧
          Touched (shelvesOutput.folders set) (shelvesOutput.contents set) .empty after) :=
  ⟨rfl, runAndCommit_outcomes shelves [()] shelvesOutput .empty rfl⟩

def shelfFiles : List Artifact :=
  [(Artifact.ofText "shelf" "A").stamp ["shelves"], (Artifact.ofText "shelf/box" "B").stamp ["shelves"]]

theorem run_shelves : (shelves.run [()]).run.value = .ok ⟨shelfFiles, []⟩ := by
  have made : (shelves.run [()]).run = ArtifactSet.empty.insertAll .error shelfFiles >>= pure := rfl
  have inserted : (ArtifactSet.empty.insertAll .error shelfFiles).value = .ok ⟨shelfFiles, []⟩ :=
    ArtifactSet.insertAll_cons_eq_ok.mpr ⟨_, ArtifactSet.insert_new _ rfl,
      ArtifactSet.insertAll_cons_eq_ok.mpr ⟨_, ArtifactSet.insert_new _ rfl, rfl⟩⟩
  rw [made, bind_pure, inserted]

theorem write_shelves : shelvesOutput.write ⟨shelfFiles, []⟩ .empty =
    (.directory [("out", .directory [("shelf", .file "A")])], .error .fileExists) := by
  with_unfolding_all rfl

/-- The commit fails, and the file that was written first is still there. -/
theorem shelf_left_behind :
    ∃ after, (shelves.runAndCommit [()] shelvesOutput.writer .empty).value = (after, .error (.file .fileExists)) ∧
      FileTree.empty.files = [] ∧ after.files = [(["out", "shelf"], "A")] := by
  refine ⟨.directory [("out", .directory [("shelf", .file "A")])], ?_, rfl, rfl⟩
  rw [runAndCommit, Logged.bind_value, run_shelves]
  simp [OutputDirectory.writer, write_shelves, Except.mapError, Except.map, pure]

end Pipeline

end ResourceKinds
