import ResourceKinds.Proofs.Artifact.Commit
import ResourceKinds.Proofs.Files.Climbing

namespace ResourceKinds

open FileTree

namespace OutputDirectory

variable {output : OutputDirectory} {path text : String}

/-- The place of the root directory. -/
def rootPlace (output : OutputDirectory) : List String :=
  arrival (base output.home output.rootPath) output.rootPath.segments

/-- The place of the directory below the root that all files are put in. -/
def folderPlace (output : OutputDirectory) : List String :=
  arrival output.rootPlace (FilePath.ofString output.folder).segments

/-- The place of a file of a set. -/
def placeOf (output : OutputDirectory) (path : String) : List String :=
  (output.file (output.relative path) "").place output.home

theorem place_file (relative : path.toList.head? ≠ some '/') :
    (output.file path text).place output.home = arrival output.rootPlace (FilePath.ofString path).segments := by
  rw [OutputFile.place, base_file relative, segments_file relative, rootPlace, arrival_append]

theorem segments_relative (output : OutputDirectory) (path : String) :
    (FilePath.ofString (output.relative path)).segments =
      (FilePath.ofString output.folder).segments ++ (FilePath.ofString path).segments := by
  unfold relative
  split
  · rename_i empty
    have nothing : (FilePath.ofString "").segments = [] := by decide
    rw [empty, nothing, List.nil_append]
  · exact FilePath.segments_append output.folder path

/-- A relative path stays relative in a folder that does not begin with a slash. -/
theorem relative_relative (folder : output.folder.toList.head? ≠ some '/') (relative : path.toList.head? ≠ some '/') :
    (output.relative path).toList.head? ≠ some '/' := by
  unfold OutputDirectory.relative
  split
  · exact relative
  · rename_i nonempty
    have chars : output.folder.toList ≠ [] := by simpa using nonempty
    obtain ⟨c, rest, same⟩ := List.exists_cons_of_ne_nil chars
    simpa [same] using folder

theorem placeOf_eq (folder : output.folder.toList.head? ≠ some '/') (relative : path.toList.head? ≠ some '/') :
    output.placeOf path = arrival output.folderPlace (FilePath.ofString path).segments ∧
    output.placeOf path = arrival output.rootPlace
      ((FilePath.ofString output.folder).segments ++ (FilePath.ofString path).segments) := by
  have place : output.placeOf path = arrival output.rootPlace (FilePath.ofString (output.relative path)).segments :=
    place_file (relative_relative folder relative)
  rw [segments_relative] at place
  exact ⟨place.trans (arrival_append ..), place⟩

theorem place_checksumList (text : String) :
    (output.file checksumList text).place output.home = output.rootPlace ++ [checksumList] := by
  rw [place_file (by decide)]
  rfl

/-- Whatever becomes of a set that is written, a new file is one of the set or the list of checksums. -/
theorem origin_of_write {set : ArtifactSet} {tree : FileTree}
    (isDirectory : tree.entryAt output.home = some .directory) {place : List String} {content : String}
    (found : (output.write set tree).1.entryAt place = some (.file content)) :
    tree.entryAt place = some (.file content) ∨
    (output.listChecksums = true ∧ place = output.rootPlace ++ [checksumList]) ∨
    ∃ artifact ∈ set.artifacts, place = output.placeOf artifact.path := by
  rcases write_touched isDirectory place with same | ⟨_, _, made⟩ | ⟨_, text, written, _⟩
  · exact .inl (same.symm.trans found)
  · cases found.symm.trans made
  · obtain ⟨file, inside, same⟩ := List.mem_map.mp written
    obtain ⟨rfl, _⟩ := Prod.mk.inj same
    rcases List.mem_append.mp inside with inside | inside
    · obtain ⟨artifact, among, rfl⟩ := List.mem_map.mp inside
      exact .inr (.inr ⟨artifact, among, rfl⟩)
    · split at inside
      · rename_i listed
        obtain rfl := List.mem_singleton.mp inside
        exact .inr (.inl ⟨listed, place_checksumList _⟩)
      · cases inside

/-- When a set has been written, there is a file at the place of each of its files. -/
theorem exists_file_of_write {set : ArtifactSet} {tree after : FileTree}
    (isDirectory : tree.entryAt output.home = some .directory) (done : output.write set tree = (after, .ok ())) :
    ∀ artifact ∈ set.artifacts, ∃ content, after.entryAt (output.placeOf artifact.path) = some (.file content) := by
  intro artifact among
  have fits := fits_of_write isDirectory done
  obtain ⟨other, again, entries⟩ := write_of_fits isDirectory fits
  obtain rfl : after = other := congrArg Prod.fst (done.symm.trans again)
  have inside : output.file (output.relative artifact.path) artifact.text ∈ output.files set :=
    List.mem_append_left _ (List.mem_map_of_mem among)
  rw [entries]
  exact OutputFile.exists_file_of_laid (fits.files.apart _ inside) _ (.inr ⟨_, inside, rfl⟩)

end OutputDirectory

end ResourceKinds
