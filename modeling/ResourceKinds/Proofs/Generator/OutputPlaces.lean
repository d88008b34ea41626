import ResourceKinds.Proofs.Artifact.Histories
import ResourceKinds.Proofs.Artifact.Places
import ResourceKinds.Proofs.Generator.PipelineRuns

namespace ResourceKinds

open FileTree

/-- Under which names the documents of manifests are filed, and in front of them in which directory. -/
inductive Filed (manifests : List AppManifest) : String → String → Prop
  | definition {manifest kind} (listed : manifest ∈ manifests) (declared : kind ∈ KindDefinition.mergeAll manifest.kinds) :
      Filed manifests "crd/" kind.crdName
  | manifest {manifest} (listed : manifest ∈ manifests) : Filed manifests "manifests/" manifest.appName
  | routes : Filed manifests "" "conversions"

/-- The path is that of a document under its name. -/
def FiledAt (manifests : List AppManifest) (path : String) : Prop :=
  ∃ front name encoding, Filed manifests front name ∧ path = front ++ name ++ "." ++ Encoding.extension encoding

theorem FiledAt.mono {manifests others : List AppManifest} {path : String} (filed : FiledAt manifests path)
    (inside : manifests ⊆ others) : FiledAt others path := by
  obtain ⟨front, name, encoding, filed, rfl⟩ := filed
  refine ⟨front, name, encoding, ?_, rfl⟩
  cases filed with
  | definition listed declared => exact .definition (inside listed) declared
  | manifest listed => exact .manifest (inside listed)
  | routes => exact .routes

namespace Filed

variable {manifests : List AppManifest} {front name : String}

theorem relative (filed : Filed manifests front name) (rest : String) :
    (front ++ name ++ rest).toList.head? ≠ some '/' := by
  cases filed <;> simp

/-- The directory is the first segment, and the name goes on from there. -/
theorem segments (filed : Filed manifests front name) (rest : String) :
    (FilePath.ofString (front ++ name ++ rest)).segments =
      (FilePath.ofString front).segments ++ (FilePath.ofString (name ++ rest)).segments := by
  cases filed with
  | definition =>
    rw [String.append_assoc]
    exact FilePath.segments_append "crd" _
  | manifest =>
    rw [String.append_assoc]
    exact FilePath.segments_append "manifests" _
  | routes => rfl

theorem ne_of_length_le {short : String} (few : short.length ≤ 2) (name : String) (encoding : Encoding) :
    name ++ "." ++ encoding.extension ≠ short := by
  have extension : encoding.extension.length = 4 := by cases encoding <;> decide
  rintro rfl
  rw [String.length_append, String.length_append, extension] at few
  omega

/-- A name without slashes is one segment together with the extension. -/
theorem segments_plain (plain : '/' ∉ name.toList) (encoding : Encoding) :
    (FilePath.ofString (name ++ "." ++ encoding.extension)).segments = [name ++ "." ++ encoding.extension] := by
  have extension : '/' ∉ encoding.extension.toList := by cases encoding <;> decide
  have pieces : Text.split '/' (name ++ "." ++ encoding.extension) = [name ++ "." ++ encoding.extension] := by
    rw [Text.split, Text.splitChars_of_notMem (by simpa using ⟨plain, extension⟩), List.map_singleton,
      String.ofList_toList]
  have named : (decide (name ++ "." ++ encoding.extension ≠ "") && decide (name ++ "." ++ encoding.extension ≠ ".")) =
      true := by
    rw [Bool.and_eq_true, decide_eq_true_eq, decide_eq_true_eq]
    exact ⟨ne_of_length_le (by decide) name encoding, ne_of_length_le (by decide) name encoding⟩
  rw [FilePath.segments, FilePath.pieces, pieces]
  exact List.filter_eq_self.mpr (List.forall_mem_singleton.mpr named)

theorem notUp_of_plain (filed : Filed manifests front name) (plain : '/' ∉ name.toList) (encoding : Encoding) :
    ".." ∉ (FilePath.ofString (front ++ name ++ "." ++ encoding.extension)).segments := by
  have fronts : ".." ∉ (FilePath.ofString front).segments := by cases filed <;> decide
  have other : ".." ≠ name ++ "." ++ encoding.extension := (ne_of_length_le (by decide) name encoding).symm
  rw [String.append_assoc, filed.segments, ← String.append_assoc, segments_plain plain]
  simpa using ⟨fronts, other⟩

theorem segments_ne_nil (filed : Filed manifests front name) (encoding : Encoding) :
    (FilePath.ofString (front ++ name ++ "." ++ encoding.extension)).segments ≠ [] := by
  rw [String.append_assoc, filed.segments, ← String.append_assoc]
  cases filed with
  | definition => exact List.append_ne_nil_of_left_ne_nil (by decide) _
  | manifest => exact List.append_ne_nil_of_left_ne_nil (by decide) _
  | routes =>
    rw [segments_plain (by decide)]
    exact List.append_ne_nil_of_right_ne_nil _ (List.cons_ne_nil _ _)

end Filed

namespace Generator

/-- The generators of the documents of manifests, also those that pass over some of the manifests. -/
inductive OfDocuments : Generator CacheM AppManifest → Prop
  | definitions (encoding preferred) : OfDocuments (definitions encoding preferred)
  | manifests (encoding apiVersion) : OfDocuments (manifests encoding apiVersion)
  | routes (encoding preferred) : OfDocuments (routes encoding preferred)
  | filter {generator} (inner : OfDocuments generator) (accepts) : OfDocuments (generator.filter accepts)

/-- If the generator comes to an end with the manifests, its files are their documents. -/
def Documents (generator : Generator CacheM AppManifest) (manifests : List AppManifest) : Prop :=
  Leads (fun _ => True) (generator.run manifests) fun files _ => (∀ file ∈ files, FiledAt manifests file.path) ∧ True

variable {generator : Generator CacheM AppManifest}

/-- Of a batch that is taken manifest by manifest, each document is that of one manifest. -/
theorem documents_of_single (single : generator.shape ≠ .manyToOne)
    (each : ∀ manifest, generator.Documents [manifest]) (manifests : List AppManifest) :
    generator.Documents manifests := by
  have batch : Leads (fun _ => True) (generator.run manifests) fun files _ =>
      (∃ made, files = List.flatten made ∧
        Aligned (fun _ manifest made => ∀ file ∈ made, FiledAt [manifest] file.path) [] manifests made) ∧ True :=
    run_leads single (fun _ _ => True) manifests fun done manifest rest _ => each manifest
  refine batch.weaken ?_
  rintro _ _ ⟨⟨made, rfl, aligned⟩, _⟩
  refine ⟨fun file inside => ?_, trivial⟩
  obtain ⟨files, among, inside⟩ := List.mem_flatten.mp inside
  obtain ⟨_, manifest, listed, filed⟩ := aligned.exists_of_mem files among
  exact (filed file inside).mono fun other isOther => List.mem_singleton.mp isOther ▸ listed

theorem documents_definitions (encoding : Encoding) (preferred : Fields String) (manifest : AppManifest) :
    (definitions encoding preferred).Documents [manifest] := by
  unfold Documents
  simp only [run, Generator.generate, definitions, List.mapM_cons, List.mapM_nil, bind_assoc, pure_bind]
  have each (kind : KindDefinition) (declared : kind ∈ KindDefinition.mergeAll manifest.kinds) :
      Leads (fun _ => True) (do
        let definition ← ResourceDefinition.build preferred manifest kind
        return document encoding (definitionPlace kind) definition.toJson)
      fun file _ => FiledAt [manifest] file.path ∧ True := by
    refine Leads.anything.bind fun definition => Leads.pure fun _ _ => ?_
    exact ⟨⟨_, _, encoding, .definition (List.mem_singleton_self _) declared, rfl⟩, trivial⟩
  have loop : Leads (fun _ => True) ((KindDefinition.mergeAll manifest.kinds).mapM fun kind => do
        let definition ← ResourceDefinition.build preferred manifest kind
        return document encoding (definitionPlace kind) definition.toJson)
      fun files _ => Aligned (fun _ _ file => FiledAt [manifest] file.path) [] (KindDefinition.mergeAll manifest.kinds)
        files ∧ True := by
    refine Leads.mapM _ fun done kind rest whole => each kind ?_
    rw [whole]
    exact List.mem_append_right _ (List.mem_cons_self ..)
  refine loop.bind fun files => Leads.given fun aligned => Leads.pure fun _ _ => ⟨fun file inside => ?_, trivial⟩
  obtain ⟨plain, among, rfl⟩ := List.mem_map.mp inside
  obtain ⟨own, isOwn, inOwn⟩ := List.mem_flatten.mp among
  obtain rfl := List.mem_singleton.mp isOwn
  obtain ⟨_, _, _, filed⟩ := aligned.exists_of_mem plain inOwn
  exact filed

theorem documents_manifests (encoding : Encoding) (apiVersion : String) (manifest : AppManifest) :
    (manifests encoding apiVersion).Documents [manifest] := by
  unfold Documents
  simp only [run, Generator.generate, Generator.manifests, List.mapM_cons, List.mapM_nil, bind_assoc, pure_bind]
  refine Leads.anything.bind fun content => Leads.pure fun _ _ => ?_
  refine ⟨List.forall_mem_singleton.mpr ?_, trivial⟩
  exact ⟨_, _, encoding, .manifest (List.mem_singleton_self _), rfl⟩

theorem documents_routes (encoding : Encoding) (preferred : Fields String) (manifests : List AppManifest) :
    (routes encoding preferred).Documents manifests := by
  unfold Documents
  simp only [run, Generator.generate, routes, bind_assoc]
  split
  · rw [pure_bind, pure_bind]
    exact Leads.pure fun _ _ => ⟨List.forall_mem_nil _, trivial⟩
  · rw [bind_assoc]
    refine Leads.anything.bind fun content => Leads.pure fun _ _ => ?_
    exact ⟨List.forall_mem_singleton.mpr ⟨_, _, encoding, .routes, rfl⟩, trivial⟩

/-- Whatever they are filtered by, these generators make nothing but documents. -/
theorem OfDocuments.documents (documents : generator.OfDocuments) (manifests : List AppManifest) :
    generator.Documents manifests := by
  induction documents generalizing manifests with
  | definitions encoding preferred =>
    exact documents_of_single (by simp [shape, Generator.definitions]) (documents_definitions encoding preferred) manifests
  | manifests encoding apiVersion =>
    exact documents_of_single (by simp [shape, Generator.manifests]) (documents_manifests encoding apiVersion) manifests
  | routes encoding preferred => exact documents_routes encoding preferred manifests
  | @filter generator _ accepts ih =>
    by_cases single : generator.shape = .manyToOne
    · have inner := ih (manifests.filter accepts)
      unfold Documents at inner ⊢
      rw [run_filter_manyToOne single]
      refine inner.weaken ?_
      rintro files _ ⟨filed, _⟩
      exact ⟨fun file inside => (filed file inside).mono (List.filter_subset_self _), trivial⟩
    · refine documents_of_single (by rwa [shape_filter]) (fun manifest => ?_) manifests
      unfold Documents
      rw [run_filter single]
      split
      · exact ih [manifest]
      · exact Leads.pure fun _ _ => ⟨List.forall_mem_nil _, trivial⟩

end Generator

namespace Pipeline

variable {pipeline : Pipeline CacheM AppManifest} {manifests : List AppManifest} {set : ArtifactSet}

theorem runFrom_filed {isCancelled : CacheM Bool} {policy : CollisionPolicy}
    {generators : List (Generator CacheM AppManifest)} (documents : ∀ generator ∈ generators, generator.OfDocuments)
    (filed : ∀ path ∈ set.paths, FiledAt manifests path) :
    Leads (fun _ => True) (runFrom isCancelled policy manifests generators set) fun result _ =>
      ∀ path ∈ result.paths, FiledAt manifests path := by
  induction generators generalizing set with
  | nil => exact Leads.pure fun _ _ => filed
  | cons generator rest ih =>
    obtain ⟨isDocuments, documents⟩ := List.forall_mem_cons.mp documents
    rw [runFrom]
    refine Leads.anything.bind fun cancelled => ?_
    split
    · rintro cache _ _ ⟨⟩
    · refine (step_leads (isDocuments.documents manifests)).bind fun next => Leads.given ?_
      rintro ⟨files, made, inserted⟩
      refine ih documents fun path inside => ?_
      obtain known | ⟨file, among, rfl⟩ := ArtifactSet.mem_paths_insertAll inserted path inside
      · exact filed path known
      · exact made file among

/-- The writer of the documents of manifests leaves files at their places and at that of the list of checksums, and
nowhere else. The list lies in the root. A document lies in its folder just if its path comes back to the folder from
wherever the name leads, and likewise it lies in the root. A path without steps up always does, in particular one to a
name without slashes. -/
theorem documents_below_iff (documents : ∀ generator ∈ pipeline.generators, generator.OfDocuments)
    {cache : ManifestCache} (ran : ((pipeline.run manifests).run.run cache).value.1 = .ok set) {home : List String}
    {tree : FileTree} (isDirectory : tree.entryAt home = some .directory) (root folder : String)
    (listChecksums : Bool) :
    let output := OutputDirectory.make home root folder listChecksums
    (∀ place content, (output.write set tree).1.entryAt place = some (.file content) →
      tree.entryAt place = some (.file content) ∨
      (listChecksums = true ∧ place = output.rootPlace ++ [OutputDirectory.checksumList]) ∨
      ∃ artifact ∈ set.artifacts, place = output.placeOf artifact.path) ∧
    Below output.rootPlace (output.rootPlace ++ [OutputDirectory.checksumList]) ∧
    ∀ artifact ∈ set.artifacts,
      let segments := (FilePath.ofString artifact.path).segments
      let folders := (FilePath.ofString output.folder).segments
      ((output.write set tree).2 = .ok () →
        ∃ content, (output.write set tree).1.entryAt (output.placeOf artifact.path) = some (.file content)) ∧
      (Below output.folderPlace (output.placeOf artifact.path) ↔ (climb segments).Returns output.folderPlace) ∧
      (Below output.rootPlace (output.placeOf artifact.path) ↔ (climb (folders ++ segments)).Returns output.rootPlace) ∧
      (".." ∉ segments → (climb segments).Returns output.folderPlace) ∧
      (".." ∉ folders ++ segments → (climb (folders ++ segments)).Returns output.rootPlace) ∧
      ∃ front name encoding, Filed manifests front name ∧
        artifact.path = front ++ name ++ "." ++ Encoding.extension encoding ∧ ('/' ∉ name.toList → ".." ∉ segments) := by
  intro output
  refine ⟨fun place content => OutputDirectory.origin_of_write isDirectory, by simp [Below], fun artifact among => ?_⟩
  intro segments folders
  have start : ∀ path ∈ ArtifactSet.empty.paths, FiledAt manifests path := fun _ nowhere => absurd nowhere List.not_mem_nil
  have filed := runFrom_filed documents start cache trivial set ran artifact.path (List.mem_map_of_mem among)
  obtain ⟨front, name, encoding, filed, path⟩ := filed
  have relative : artifact.path.toList.head? ≠ some '/' := by
    rw [path, String.append_assoc]
    exact filed.relative _
  have nonempty : segments ≠ [] := by
    have named := filed.segments_ne_nil encoding
    rwa [← path] at named
  have relativeFolder : output.folder.toList.head? ≠ some '/' := Text.head?_strip '/' folder
  obtain ⟨inFolder, inRoot⟩ := OutputDirectory.placeOf_eq relativeFolder relative
  refine ⟨fun done => ?_, ?_, ?_, returns_of_notUp nonempty,
    returns_of_notUp (List.append_ne_nil_of_right_ne_nil _ nonempty), front, name, encoding, filed, path, fun plain => ?_⟩
  · have whole : output.write set tree = ((output.write set tree).1, .ok ()) := by rw [← done]
    exact OutputDirectory.exists_file_of_write isDirectory whole artifact among
  · rw [inFolder]
    exact below_arrival_iff
  · rw [inRoot]
    exact below_arrival_iff
  · have named := filed.notUp_of_plain plain encoding
    rwa [← path] at named

/-- A manifest of an app that has no kinds, and a name that leads elsewhere. -/
def notes : AppManifest := ⟨"../../notes", "notes.dev", []⟩

def notebook : Pipeline CacheM AppManifest := .ofGenerators [.manifests .json ManifestDocument.defaultApiVersion]

def notesFile : Artifact :=
  (Generator.document .json "manifests/../../notes"
    (ManifestDocument.toJson ⟨ManifestDocument.defaultApiVersion, "../../notes", "notes.dev", []⟩)).stamp ["manifest"]

def notesCache : ManifestCache :=
  ⟨[("../../notes", ⟨some ⟨"../../notes", "notes.dev", [], true, []⟩, none, []⟩)], 1, 0⟩

theorem run_notes : ((notebook.run [notes]).run.run .empty).value.1 = .ok ⟨[notesFile], []⟩ := by
  have made : Gives .empty ((Generator.manifests .json ManifestDocument.defaultApiVersion).run [notes])
      [notesFile] notesCache := by
    unfold Gives Generator.manifests notesFile
    generalize Generator.document = make
    rfl
  have inserted : (ArtifactSet.empty.insertAll .error [notesFile]).value = .ok ⟨[notesFile], []⟩ :=
    ArtifactSet.insertAll_cons_eq_ok.mpr ⟨_, ArtifactSet.insert_new .error rfl, rfl⟩
  have run : Gives .empty (notebook.run [notes]) ⟨[notesFile], []⟩ notesCache := by
    rw [Pipeline.run, notebook, ofGenerators, runFrom_cons]
    exact (step_gives made inserted).bind Gives.pure
  exact congrArg Prod.fst run

theorem documents_notebook : ∀ generator ∈ notebook.generators, generator.OfDocuments :=
  List.forall_mem_singleton.mpr (.manifests _ _)

/-- In a folder below another one, the notes of the app leave the folder and stay in the root. -/
theorem documents_below_iff_notes :
    ((notebook.run [notes]).run.run .empty).value.1 = .ok ⟨[notesFile], []⟩ ∧
    FileTree.empty.entryAt [] = some .directory ∧
    let output := OutputDirectory.make [] "out" "docs/apps" false
    Below output.rootPlace (output.placeOf notesFile.path) ∧ ¬ Below output.folderPlace (output.placeOf notesFile.path) := by
  have isDirectory : FileTree.empty.entryAt [] = some .directory := rfl
  refine ⟨run_notes, isDirectory, ?_⟩
  obtain ⟨_, _, each⟩ := documents_below_iff documents_notebook run_notes isDirectory "out" "docs/apps" false
  obtain ⟨_, inFolder, inRoot, _⟩ := each notesFile (List.mem_singleton_self _)
  exact ⟨inRoot.mpr (by decide), fun below => absurd (inFolder.mp below) (by decide)⟩

def notesOutput : OutputDirectory := .make [] "out" "" false

theorem write_notes : notesOutput.write ⟨[notesFile], []⟩ .empty =
    (.directory [("out", .directory [("manifests", .empty)]), ("notes.json", .file notesFile.text)], .ok ()) := by
  have home : notesOutput.home = [] := rfl
  have root : notesOutput.rootPath = ⟨"out"⟩ := rfl
  have made : FileTree.empty.makePath notesOutput.home notesOutput.rootPath =
      (.directory [("out", .empty)], .ok ()) := by
    rw [home, root]
    with_unfolding_all rfl
  have files : notesOutput.files ⟨[notesFile], []⟩ =
      [⟨⟨"out/manifests/../../notes.json"⟩, notesFile.text⟩] := rfl
  have parent : (FilePath.ofString "out/manifests/../../notes.json").parent = ⟨"out/manifests/../.."⟩ := by
    decide +kernel
  have climbed : (FileTree.directory [("out", .empty)]).makePath [] ⟨"out/manifests/../.."⟩ =
      (.directory [("out", .directory [("manifests", .empty)])], .ok ()) := by with_unfolding_all rfl
  have segments : (FilePath.ofString "out/manifests/../../notes.json").segments =
      ["out", "manifests", "..", ".."] ++ ["notes.json"] := by decide +kernel
  have written : (FileTree.directory [("out", .directory [("manifests", .empty)])]).writeFile []
      (.ofString "out/manifests/../../notes.json") notesFile.text =
        .ok (.directory [("out", .directory [("manifests", .empty)]), ("notes.json", .file notesFile.text)]) := by
    refine (FileTree.writeFile_eq_ok segments).mpr ⟨by decide +kernel, ⟨?_, ?_⟩, by decide +kernel, rfl⟩
    · unfold FileTree.Named
      decide +kernel
    · unfold FileTree.Passable
      decide +kernel
  rw [OutputDirectory.write_eq_writeAll rfl made, files, home, OutputFile.writeAll, OutputFile.write, parent, climbed]
  simp only [written, OutputFile.writeAll]

/-- Without a folder, they are written beside the output directory. -/
theorem notes_beside_root :
    ∃ set after, ((notebook.run [notes]).run.run .empty).value.1 = .ok set ∧
      notesOutput.write set .empty = (after, .ok ()) ∧ after.files = [(["notes.json"], notesFile.text)] ∧
      notesOutput.rootPlace = ["out"] ∧ ¬ Below ["out"] ["notes.json"] :=
  ⟨_, _, run_notes, write_notes, rfl, rfl, by decide⟩

end Pipeline

end ResourceKinds
