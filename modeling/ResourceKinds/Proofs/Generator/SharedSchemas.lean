import ResourceKinds.Generator.Documents
import ResourceKinds.Proofs.BuildRuns
import ResourceKinds.Proofs.Kind.Declarations

namespace ResourceKinds

namespace AppManifest

theorem kindVersion?_of_not_hasKinds {manifest : AppManifest} (without : ¬ manifest.hasKinds) (kind version : String) :
    manifest.kindVersion? kind version = none := by
  have empty : manifest.kinds = [] := by simpa [hasKinds] using without
  simp [kindVersion?, empty]

/-- The version as the first manifest of the app that has it declares it. -/
def firstDeclared (seen : List AppManifest) (app kind version : String) : Option KindVersion :=
  seen.findSome? fun manifest => if manifest.appName = app then manifest.kindVersion? kind version else none

theorem firstDeclared_concat (seen : List AppManifest) (manifest : AppManifest) (app kind version : String) :
    firstDeclared (seen ++ [manifest]) app kind version = (firstDeclared seen app kind version).or
      (if manifest.appName = app then manifest.kindVersion? kind version else none) := by
  simp only [firstDeclared, List.findSome?_append, List.findSome?_cons, List.findSome?_nil]
  cases (if manifest.appName = app then manifest.kindVersion? kind version else none) <;> rfl

theorem firstDeclared_concat_of_some {seen : List AppManifest} {app kind version : String} {declared : KindVersion}
    (found : firstDeclared seen app kind version = some declared) (manifest : AppManifest) :
    firstDeclared (seen ++ [manifest]) app kind version = some declared := by
  rw [firstDeclared_concat, found]
  rfl

/-- What a manifest with a group declares after an earlier one of its app has the same schema there. -/
def Agrees (seen : List AppManifest) (manifest : AppManifest) : Prop :=
  ∀ kind version earlier declared, firstDeclared seen manifest.appName kind version = some earlier →
    manifest.kindVersion? kind version = some declared →
      earlier.schema = declared.schema ∧ ∃ group, manifest.resolveGroup = .ok group

/-- A manifest that is the first of its app to have kinds agrees with all before it. -/
theorem agrees_of_apart {seen : List AppManifest} {manifest : AppManifest}
    (apart : ∀ earlier ∈ seen, earlier.hasKinds → earlier.appName ≠ manifest.appName) : manifest.Agrees seen := by
  intro kind version first declared found _
  obtain ⟨earlier, inside, declares⟩ := List.exists_of_findSome?_eq_some found
  split at declares
  · rename_i same
    by_cases kinds : earlier.hasKinds
    · exact absurd same (apart earlier inside kinds)
    · rw [kindVersion?_of_not_hasKinds kinds] at declares
      cases declares
  · cases declares

end AppManifest

namespace ManifestCache

open AppManifest (firstDeclared)

variable {seen : List AppManifest} {manifest : AppManifest} {cache : ManifestCache}

/-- What is kept for an app are the schemas of the versions that the manifests declare first. -/
structure HoldsFor (seen : List AppManifest) (app : String) (cache : ManifestCache) : Prop where
  sound : ∀ kind version synthesized, cache.stored? app kind version = some synthesized →
    ∃ declared, firstDeclared seen app kind version = some declared ∧
      declared.schema.synthesize kind version = .ok synthesized
  complete : ∀ kind version declared, firstDeclared seen app kind version = some declared →
    (cache.stored? app kind version).isSome = true
  unviewed : cache.view? app true = none

/-- For every app, what is kept are the schemas of the versions that are declared first. -/
def Holds (seen : List AppManifest) (cache : ManifestCache) : Prop := ∀ app, HoldsFor seen app cache

/-- What is kept while one more manifest is under way, which has already asked for some versions. -/
structure Gathers (seen : List AppManifest) (manifest : AppManifest) (asked : String → String → Prop)
    (cache : ManifestCache) : Prop where
  sound : ∀ app kind version synthesized, cache.stored? app kind version = some synthesized →
    ∃ declared, firstDeclared (seen ++ [manifest]) app kind version = some declared ∧
      declared.schema.synthesize kind version = .ok synthesized
  earlier : ∀ app kind version declared, firstDeclared seen app kind version = some declared →
    (cache.stored? app kind version).isSome = true
  answered : ∀ kind version, asked kind version → (cache.stored? manifest.appName kind version).isSome = true
  unviewed : ∀ app, cache.view? app true = none

theorem holds_empty : Holds [] empty := fun _ => ⟨nofun, nofun, rfl⟩

theorem HoldsFor.congr {app : String} {other : ManifestCache} (holds : HoldsFor seen app cache)
    (stored : ∀ kind version, other.stored? app kind version = cache.stored? app kind version)
    (views : other.view? app true = cache.view? app true) : HoldsFor seen app other :=
  ⟨by simpa only [stored] using holds.sound, by simpa only [stored] using holds.complete, views.trans holds.unviewed⟩

/-- A manifest that has asked for nothing has changed nothing. -/
theorem Holds.gathers (holds : Holds seen cache) (manifest : AppManifest) :
    Gathers seen manifest (fun _ _ => False) cache where
  sound app kind version synthesized kept := by
    obtain ⟨declared, found, built⟩ := (holds app).sound kind version synthesized kept
    exact ⟨declared, AppManifest.firstDeclared_concat_of_some found manifest, built⟩
  earlier app := (holds app).complete
  answered _ _ := False.elim
  unviewed app := (holds app).unviewed

theorem Gathers.mono {asked less : String → String → Prop} (gathers : Gathers seen manifest asked cache)
    (fewer : ∀ kind version, less kind version → asked kind version) : Gathers seen manifest less cache :=
  { gathers with answered := fun kind version wanted => gathers.answered kind version (fewer kind version wanted) }

/-- A manifest is through when it has asked for all that it declares. -/
theorem Gathers.holds {asked : String → String → Prop} (gathers : Gathers seen manifest asked cache)
    (all : ∀ kind version declared, manifest.kindVersion? kind version = some declared → asked kind version) :
    Holds (seen ++ [manifest]) cache := fun app => {
  sound := gathers.sound app
  complete := fun kind version declared found => by
    rw [AppManifest.firstDeclared_concat] at found
    cases before : firstDeclared seen app kind version with
    | some other => exact gathers.earlier app kind version other before
    | none =>
      rw [before, Option.none_or] at found
      split at found
      · rename_i same
        exact same ▸ gathers.answered kind version (all kind version declared found)
      · cases found
  unviewed := gathers.unviewed app }

/-- A manifest without kinds declares nothing. -/
theorem Holds.concat_of_not_hasKinds (holds : Holds seen cache) (without : ¬ manifest.hasKinds) :
    Holds (seen ++ [manifest]) cache := by
  intro app
  have same (kind version : String) :
      firstDeclared (seen ++ [manifest]) app kind version = firstDeclared seen app kind version := by
    rw [AppManifest.firstDeclared_concat, AppManifest.kindVersion?_of_not_hasKinds without, ite_self, Option.or_none]
  exact ⟨by simpa only [same] using (holds app).sound, by simpa only [same] using (holds app).complete,
    (holds app).unviewed⟩

theorem Holds.faithful (holds : Holds seen cache) (agrees : manifest.Agrees seen) :
    Faithful manifest cache := by
  intro kind version synthesized known kept
  obtain ⟨declared, found⟩ := Option.isSome_iff_exists.mp known
  obtain ⟨earlier, first, built⟩ := (holds manifest.appName).sound kind version synthesized kept
  obtain ⟨same, resolves⟩ := agrees kind version earlier declared first found
  exact AppManifest.schemaOf_eq_ok.mpr ⟨resolves, declared, found, same ▸ built⟩

/-- One more question adds at most the answer to it. -/
theorem kindVersionSchema_gathers {asked : String → String → Prop} (kind version : String) :
    Leads (Gathers seen manifest asked) (ExceptT.mk (kindVersionSchema manifest kind version)) fun _ =>
      Gathers seen manifest fun name other => asked name other ∨ name = kind ∧ other = version := by
  unfold Leads
  rw [ExceptT.run_mk]
  intro cache gathers synthesized answered
  cases found : cache.stored? manifest.appName kind version with
  | some kept =>
    rw [kindVersionSchema_hit found]
    refine { gathers with answered := fun name other wanted => ?_ }
    rcases wanted with before | ⟨rfl, rfl⟩
    · exact gathers.answered name other before
    · rw [found]
      rfl
  | none =>
    obtain ⟨own, stored, views⟩ := kindVersionSchema_miss found
    obtain ⟨_, declared, declares, built⟩ := AppManifest.schemaOf_eq_ok.mp (own.symm.trans answered)
    rw [own.symm.trans answered] at stored
    have new : firstDeclared seen manifest.appName kind version = none := by
      cases before : firstDeclared seen manifest.appName kind version with
      | none => rfl
      | some other => simpa [found] using gathers.earlier _ _ _ other before
    have stays (app name other : String) (kept : (cache.stored? app name other).isSome = true) :
        (((kindVersionSchema manifest kind version).run cache).value.2.stored? app name other).isSome = true := by
      rw [stored]
      split
      · rfl
      · exact kept
    refine ⟨fun app name other result kept => ?_, fun app name other earlier first => ?_,
      fun name other wanted => ?_, ?_⟩
    · rw [stored] at kept
      split at kept
      · rename_i here
        obtain ⟨rfl, rfl, rfl⟩ := here
        obtain rfl := Option.some.inj kept
        refine ⟨declared, ?_, built⟩
        rw [AppManifest.firstDeclared_concat, new, if_pos rfl, declares]
        rfl
      · exact gathers.sound app name other result kept
    · exact stays app name other (gathers.earlier app name other earlier first)
    · rcases wanted with before | ⟨rfl, rfl⟩
      · exact stays _ name other (gathers.answered name other before)
      · rw [stored, if_pos ⟨rfl, rfl, rfl⟩]
        rfl
    · exact fun app => (views app true).trans (gathers.unviewed app)

end ManifestCache

end ResourceKinds
