import ResourceKinds.CommandLine.Program
import ResourceKinds.Proofs.Files.Paths
import ResourceKinds.Proofs.Generator.KindByKind

namespace ResourceKinds

/-- The schema as it is shown. -/
def Synthesized.shown (synthesized : Synthesized) : String := synthesized.schema.toJson.pretty ++ "\n"

namespace AppManifest

variable {kind version : String}

/-- The manifest has a kind of this name, in whatever group and with whatever versions. -/
def hasKind (kind : String) (manifest : AppManifest) : Bool := (manifest.kind? kind).isSome

theorem hasKind_iff {manifest : AppManifest} :
    manifest.hasKind kind = true ↔ ∃ definition ∈ manifest.kinds, definition.kind = kind := by
  simp [hasKind, kind?]

theorem hasKind_of_declared {manifest : AppManifest} {declared : KindVersion}
    (among : (kind, declared) ∈ manifest.declared) : manifest.hasKind kind = true := by
  obtain ⟨definition, inside, declares⟩ := List.mem_flatMap.mp among
  obtain ⟨_, _, same⟩ := List.mem_map.mp declares
  exact hasKind_iff.mpr ⟨definition, inside, (Prod.mk.inj same).1⟩

/-- The first manifest with the kind is asked, and it answers as it does alone. -/
theorem findSchema_eq (manifests : List AppManifest) (kind version : String) :
    findSchema manifests kind version = (manifests.find? (hasKind kind)).map (·.schemaOf kind version) := by
  unfold findSchema
  refine congrArg (Option.map · _) (funext fun manifest => ?_)
  exact ManifestCache.kindVersionSchema_answer .empty manifest kind version

theorem find?_of_skipped {skipped rest : List AppManifest} {chosen : AppManifest}
    (without : ∀ other ∈ skipped, other.hasKind kind = false) (has : chosen.hasKind kind = true) :
    (skipped ++ chosen :: rest).find? (hasKind kind) = some chosen :=
  List.find?_eq_some_iff_append.mpr ⟨has, skipped, rest, rfl, fun other inside => by simp [without other inside]⟩

/-- The first of some manifests that has the kind, if there is one. -/
theorem without_or_namesake (kind : String) (manifests : List AppManifest) :
    (∀ other ∈ manifests, other.hasKind kind = false) ∨
      ∃ skipped namesake rest, manifests = skipped ++ namesake :: rest ∧
        (∀ other ∈ skipped, other.hasKind kind = false) ∧ namesake.hasKind kind = true := by
  cases found : manifests.find? (hasKind kind) with
  | none => exact .inl (by simpa using found)
  | some namesake =>
    obtain ⟨has, skipped, rest, split, without⟩ := List.find?_eq_some_iff_append.mp found
    exact .inr ⟨skipped, namesake, rest, split, by simpa using without, has⟩

/-- Why a manifest has nothing for a version that it does not declare. -/
def withoutVersion (manifest : AppManifest) (kind version : String) : Error :=
  match manifest.resolveGroup with
  | .error error => .manifest error
  | .ok _ => .schema (.kindVersionNotFound kind version)

theorem schemaOf_of_undeclared {manifest : AppManifest} (undeclared : manifest.kindVersion? kind version = none) :
    manifest.schemaOf kind version = .error (manifest.withoutVersion kind version) := by
  rw [schemaOf, undeclared, withoutVersion]
  cases manifest.resolveGroup <;> rfl

end AppManifest

namespace Command

variable {settings : Settings} {around : Surroundings} {input kind version : String} {manifests : List AppManifest}

/-- What is shown is what the chosen manifest says. -/
theorem run_schema (loaded : AppManifest.load around input = .ok manifests) {chosen : AppManifest}
    (found : manifests.find? (AppManifest.hasKind kind) = some chosen) :
    (run settings around (.schema input kind version)).2 =
      ((chosen.schemaOf kind version).map Synthesized.shown).mapError .failed := by
  simp only [run, loaded, AppManifest.findSchema_eq, found, Option.map_some]
  cases chosen.schemaOf kind version <;> rfl

theorem run_schema_eq_ok (loaded : AppManifest.load around input = .ok manifests) {chosen : AppManifest}
    (found : manifests.find? (AppManifest.hasKind kind) = some chosen) {text : String} :
    (run settings around (.schema input kind version)).2 = .ok text ↔
      ∃ synthesized, chosen.schemaOf kind version = .ok synthesized ∧ synthesized.shown = text := by
  rw [run_schema loaded found, mapError_eq_ok, map_eq_ok]

/-- The first manifest with the kind hides the versions that others declare for it. -/
theorem run_schema_of_namesake {skipped rest : List AppManifest} {namesake : AppManifest}
    (loaded : AppManifest.load around input = .ok (skipped ++ namesake :: rest))
    (without : ∀ other ∈ skipped, other.hasKind kind = false) (has : namesake.hasKind kind = true)
    (undeclared : namesake.kindVersion? kind version = none) :
    (run settings around (.schema input kind version)).2 = .error (.failed (namesake.withoutVersion kind version)) := by
  rw [run_schema loaded (AppManifest.find?_of_skipped without has), AppManifest.schemaOf_of_undeclared undeclared]
  rfl

/-- A version that a manifest declares, and no manifest before it does. If it is this declaration that the manifest
finds by the version's name, its schema is shown just if no manifest before has a kind of the name at all. In general
a text is shown just if that is so and the declaration that the manifest finds has a schema shown like this. Where
there is a kind of the name before, the first manifest with one is asked, which has nothing for the version. -/
theorem schema_shown_iff (settings : Settings) (before : List AppManifest) {after : List AppManifest}
    {manifest : AppManifest}
    (loaded : AppManifest.load around input = .ok (before ++ manifest :: after)) {group : String}
    (resolved : manifest.resolveGroup = .ok group) {declared : KindVersion}
    (among : (kind, declared) ∈ manifest.declared) {synthesized : Synthesized}
    (built : declared.schema.synthesize kind declared.name = .ok synthesized)
    (alone : ∀ other ∈ before, other.kindVersion? kind declared.name = none) :
    let shown := (run settings around (.schema input kind declared.name)).2
    (manifest.kindVersion? kind declared.name = some declared →
      (shown = .ok synthesized.shown ↔ ∀ other ∈ before, other.hasKind kind = false)) ∧
    (∀ text, shown = .ok text ↔ (∀ other ∈ before, other.hasKind kind = false) ∧
      ∃ first again, manifest.kindVersion? kind declared.name = some first ∧
        first.schema.synthesize kind declared.name = .ok again ∧ again.shown = text) ∧
    ∀ skipped namesake rest, before = skipped ++ namesake :: rest → (∀ other ∈ skipped, other.hasKind kind = false) →
      namesake.hasKind kind = true → shown = .error (.failed (namesake.withoutVersion kind declared.name)) := by
  intro shown
  have hidden : ∀ skipped namesake rest, before = skipped ++ namesake :: rest →
      (∀ other ∈ skipped, other.hasKind kind = false) → namesake.hasKind kind = true →
      shown = .error (.failed (namesake.withoutVersion kind declared.name)) := by
    rintro skipped namesake rest rfl without has
    rw [List.append_assoc] at loaded
    exact run_schema_of_namesake loaded without has (alone namesake (List.mem_append_right _ (List.mem_cons_self ..)))
  have shows : ∀ text, shown = .ok text ↔ (∀ other ∈ before, other.hasKind kind = false) ∧
      ∃ first again, manifest.kindVersion? kind declared.name = some first ∧
        first.schema.synthesize kind declared.name = .ok again ∧ again.shown = text := by
    intro text
    obtain without | ⟨skipped, namesake, rest, split, first, has⟩ := AppManifest.without_or_namesake kind before
    · have has := AppManifest.hasKind_of_declared among
      rw [run_schema_eq_ok loaded (AppManifest.find?_of_skipped without has)]
      constructor
      · rintro ⟨again, own, same⟩
        obtain ⟨_, first, found, builds⟩ := AppManifest.schemaOf_eq_ok.mp own
        exact ⟨without, first, again, found, builds, same⟩
      · rintro ⟨_, first, again, found, builds, same⟩
        exact ⟨again, AppManifest.schemaOf_eq_ok.mpr ⟨⟨group, resolved⟩, first, found, builds⟩, same⟩
    · constructor
      · exact fun succeeds => nomatch succeeds.symm.trans (hidden skipped namesake rest split first has)
      · rintro ⟨without, _⟩
        have inside : namesake ∈ skipped ++ namesake :: rest := List.mem_append_right _ (List.mem_cons_self ..)
        exact absurd has (Bool.eq_false_iff.mp (without namesake (split ▸ inside)))
  refine ⟨fun found => ⟨fun succeeds => ((shows _).mp succeeds).1, fun without => ?_⟩, shows, hidden⟩
  exact (shows _).mpr ⟨without, declared, synthesized, found, built, rfl⟩

end Command

namespace AppManifest

/-- A manifest with one version of the desks, and the text of its file. -/
def desksAt (app version : String) : AppManifest := ⟨app, "", [deskKind "Desk" none [version]]⟩

def desksText (app version : String) : String :=
  "\x7b\"appName\":\"" ++ app ++ "\",\"kinds\":[\x7b\"group\":\"desks.dev\",\"kind\":\"Desk\",\"versions\":" ++
    "[\x7b\"name\":\"" ++ version ++ "\",\"schema\":" ++
      "\x7b\"components\":\x7b\"schemas\":\x7b\"Desk\":\x7b\"type\":\"object\"\x7d\x7d\x7d\x7d\x7d]\x7d]\x7d"

/-- Two apps share the group of the desks; each declares one version. -/
def sharedDesks : Surroundings where
  files := .directory [("in", .directory [("a.json", .file (desksText "a" "v1")),
    ("b.json", .file (desksText "b" "v2"))])]
  home := []
  environment := []

theorem reading?_of_taken (path content : String) (taken : (FilePath.ofString path).fault? = none) :
    FileTree.reading? path content = some (path, .ok content) := by
  rw [FileTree.reading?, FilePath.fault?_parent taken, taken]

theorem filesBelow_pair (first second : String) :
    (FileTree.directory [("in", .directory [("a.json", .file first), ("b.json", .file second)])]).filesBelow [] "in" =
      [("in/a.json", .ok first), ("in/b.json", .ok second)] := by
  have ordered : decide (["b.json"] < ["a.json"]) = false := by decide
  have sorted : [(["a.json"], first), (["b.json"], second)].mergeSort (fun a b => !decide (b.1 < a.1)) =
      [(["a.json"], first), (["b.json"], second)] := by
    refine List.mergeSort_of_pairwise ?_
    rw [List.pairwise_pair]
    simp [ordered]
  have taken : (FilePath.ofString "in").fault? = none := by decide +kernel
  have segments : (FilePath.ofString "in").segments = ["in"] := by decide +kernel
  have one : FilePath.join "in" ("/".intercalate ["a.json"]) = "in/a.json" := by decide +kernel
  have other : FilePath.join "in" ("/".intercalate ["b.json"]) = "in/b.json" := by decide +kernel
  have readOne := reading?_of_taken "in/a.json" first (by decide +kernel)
  have readOther := reading?_of_taken "in/b.json" second (by decide +kernel)
  have start : FileTree.base [] (.ofString "in") = [] := by decide +kernel
  have walked : (FileTree.directory [("in", .directory [("a.json", .file first), ("b.json", .file second)])]).walk []
      ["in"] = .ok ["in"] := rfl
  have found : (((FileTree.directory [("in", .directory [("a.json", .file first), ("b.json", .file second)])]).get?
      ["in"]).map FileTree.files).getD [] = [(["a.json"], first), (["b.json"], second)] := rfl
  rw [FileTree.filesBelow, taken, start, segments, walked]
  simp only [found, sorted, List.filterMap_cons, List.filterMap_nil, one, other, readOne, readOther]

theorem load_sharedDesks : load sharedDesks "in" = .ok [desksAt "a" "v1", desksAt "b" "v2"] := by
  have first : ofFile "in/a.json" (.ok (desksText "a" "v1")) = .ok (some (desksAt "a" "v1")) := by decide +kernel
  have second : ofFile "in/b.json" (.ok (desksText "b" "v2")) = .ok (some (desksAt "b" "v2")) := by decide +kernel
  unfold load sharedDesks
  rw [filesBelow_pair, List.mapM_cons, List.mapM_cons, List.mapM_nil]
  simp only [first, second]
  rfl

end AppManifest

namespace Command

open AppManifest

/-- Of the two versions only the one in the first file is shown. -/
theorem schema_shown_iff_desks :
    load sharedDesks "in" = .ok [desksAt "a" "v1", desksAt "b" "v2"] ∧
    (desksAt "a" "v1").resolveGroup = .ok "desks.dev" ∧ (desksAt "b" "v2").resolveGroup = .ok "desks.dev" ∧
    ("Desk", deskVersion "v1") ∈ (desksAt "a" "v1").declared ∧
    ("Desk", deskVersion "v2") ∈ (desksAt "b" "v2").declared ∧
    (deskVersion "v1").schema.synthesize "Desk" "v1" = .ok deskSchema ∧
    (deskVersion "v2").schema.synthesize "Desk" "v2" = .ok deskSchema ∧
    (desksAt "a" "v1").kindVersion? "Desk" "v2" = none ∧
    (run .default sharedDesks (.schema "in" "Desk" "v1")).2 = .ok deskSchema.shown ∧
    (run .default sharedDesks (.schema "in" "Desk" "v2")).2 =
      .error (.failed (.schema (.kindVersionNotFound "Desk" "v2"))) := by
  have loaded := load_sharedDesks
  have first : (desksAt "a" "v1").resolveGroup = .ok "desks.dev" := by rfl
  have second : (desksAt "b" "v2").resolveGroup = .ok "desks.dev" := by rfl
  have inFirst : ("Desk", deskVersion "v1") ∈ (desksAt "a" "v1").declared := List.mem_singleton.mpr rfl
  have inSecond : ("Desk", deskVersion "v2") ∈ (desksAt "b" "v2").declared := List.mem_singleton.mpr rfl
  have alone : ∀ other ∈ [desksAt "a" "v1"], other.kindVersion? "Desk" "v2" = none :=
    List.forall_mem_singleton.mpr rfl
  have built := synthesize_desk "Desk"
  refine ⟨loaded, first, second, inFirst, inSecond, built "v1", built "v2", rfl, ?_, ?_⟩
  · have shows := schema_shown_iff .default [] loaded first inFirst (built "v1") (List.forall_mem_nil _)
    exact (shows.1 rfl).mpr (List.forall_mem_nil _)
  · have shows := schema_shown_iff .default [desksAt "a" "v1"] loaded second inSecond (built "v2") alone
    exact shows.2.2 [] (desksAt "a" "v1") [] rfl (List.forall_mem_nil _) rfl

end Command

namespace Program

open AppManifest

/-- The second file declares a version of the desks with a schema, and no other file does. The program does not find it,
because the first file has desks too. -/
theorem desk_hidden_by_namesake :
    load sharedDesks "in" = .ok [desksAt "a" "v1", desksAt "b" "v2"] ∧
    (desksAt "b" "v2").resolveGroup = .ok "desks.dev" ∧ ("Desk", deskVersion "v2") ∈ (desksAt "b" "v2").declared ∧
    (deskVersion "v2").schema.synthesize "Desk" "v2" = .ok deskSchema ∧
    (desksAt "a" "v1").kindVersion? "Desk" "v2" = none ∧
    run sharedDesks ["schema", "-i", "in", "-k", "Desk", "-V", "v2"] =
      ⟨1, "", "Error: Kind version not found: Desk/v2\n", sharedDesks.files⟩ := by
  refine ⟨load_sharedDesks, rfl, List.mem_singleton.mpr rfl, synthesize_desk "Desk" "v2", rfl, ?_⟩
  have invoked : Invocation.ofArguments ["schema", "-i", "in", "-k", "Desk", "-V", "v2"] =
      .ok ⟨none, .schema "in" "Desk" "v2"⟩ := by decide +kernel
  have settled : (Settings.load sharedDesks none).isOk = true := by decide +kernel
  obtain ⟨settings, loaded⟩ : ∃ settings, Settings.load sharedDesks none = .ok settings := by
    cases found : Settings.load sharedDesks none with
    | ok settings => exact ⟨settings, rfl⟩
    | error error => rw [found] at settled; cases settled
  have found : [desksAt "a" "v1", desksAt "b" "v2"].find? (hasKind "Desk") = some (desksAt "a" "v1") := by rfl
  have asked : (Command.run settings sharedDesks (.schema "in" "Desk" "v2")).2 =
      .error (.failed (.schema (.kindVersionNotFound "Desk" "v2"))) := Command.run_schema load_sharedDesks found
  have ran : Command.run settings sharedDesks (.schema "in" "Desk" "v2") =
      (sharedDesks.files, .error (.failed (.schema (.kindVersionNotFound "Desk" "v2")))) := Prod.ext rfl asked
  simp only [run, invoked, loaded, ran]
  exact congrArg (Outcome.mk 1 "" · sharedDesks.files) (by decide +kernel)

end Program

end ResourceKinds
