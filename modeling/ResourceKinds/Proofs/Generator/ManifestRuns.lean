import ResourceKinds.Proofs.Generator.Runs
import ResourceKinds.Proofs.Generator.SharedSchemas
import ResourceKinds.Proofs.ManifestViews

namespace ResourceKinds

namespace AppManifest

/-- The first manifest of the app that has kinds. -/
def leader (seen : List AppManifest) (app : String) : Option AppManifest :=
  seen.find? fun manifest => manifest.hasKinds && manifest.appName = app

theorem leader_concat (seen : List AppManifest) (manifest : AppManifest) (app : String) :
    leader (seen ++ [manifest]) app = (leader seen app).or
      (if manifest.hasKinds ∧ manifest.appName = app then some manifest else none) := by
  unfold leader
  rw [List.find?_append]
  congr 1
  by_cases kinds : manifest.hasKinds <;> by_cases same : manifest.appName = app <;> simp [kinds, same]

theorem leader_spec {seen : List AppManifest} {app : String} {first : AppManifest}
    (found : leader seen app = some first) :
    first.hasKinds ∧ first.appName = app := by
  simpa using List.find?_some found

/-- The manifest whose document a manifest gets that comes after the given ones. -/
def standIn (seen : List AppManifest) (manifest : AppManifest) : AppManifest :=
  if manifest.hasKinds then (leader seen manifest.appName).getD manifest else manifest

theorem standIn_of_leader {seen : List AppManifest} {manifest first : AppManifest} (kinds : manifest.hasKinds)
    (found : leader (seen ++ [manifest]) manifest.appName = some first) : manifest.standIn seen = first := by
  rw [leader_concat, if_pos ⟨kinds, rfl⟩] at found
  unfold standIn
  rw [if_pos kinds]
  cases earlier : leader seen manifest.appName with
  | some other =>
    rw [earlier] at found
    exact Option.some.inj found
  | none =>
    rw [earlier] at found
    exact Option.some.inj found

theorem hasKinds_standIn {manifest : AppManifest} (kinds : manifest.hasKinds) (seen : List AppManifest) :
    (manifest.standIn seen).hasKinds := by
  unfold standIn
  rw [if_pos kinds]
  cases earlier : leader seen manifest.appName with
  | some first => exact (leader_spec earlier).1
  | none => exact kinds

/-- A manifest stands for itself unless an earlier one of its app has kinds. -/
theorem standIn_of_apart {seen : List AppManifest} {manifest : AppManifest}
    (apart : ∀ earlier ∈ seen, earlier.hasKinds → earlier.appName ≠ manifest.appName) :
    manifest.standIn seen = manifest := by
  have nobody : leader seen manifest.appName = none :=
    List.find?_eq_none.mpr fun earlier inside => by simpa using apart earlier inside
  unfold standIn
  rw [nobody]
  exact ite_self _

/-- Nobody before the first manifest with kinds declares anything for its app. -/
theorem firstDeclared_of_leader {done : List AppManifest} (rest : List AppManifest) {manifest : AppManifest}
    {kind version : String}
    {declared : KindVersion} (first : leader done manifest.appName = none)
    (found : manifest.kindVersion? kind version = some declared) :
    firstDeclared (done ++ manifest :: rest) manifest.appName kind version = some declared := by
  have nowhere : firstDeclared done manifest.appName kind version = none := by
    refine List.findSome?_eq_none_iff.mpr fun earlier inside => ?_
    split
    · rename_i same
      have refused := List.find?_eq_none.mp first earlier inside
      exact kindVersion?_of_not_hasKinds (by simpa [same] using refused) kind version
    · rfl
  unfold firstDeclared at nowhere ⊢
  rw [List.findSome?_append, nowhere, List.findSome?_cons, if_pos rfl, found]
  rfl

end AppManifest

namespace ManifestCache

open AppManifest (firstDeclared leader)

variable {all done : List AppManifest} {manifest : AppManifest} {cache : ManifestCache}

/-- Apps without a view have what the definitions have left, and the others have the view of the first manifest. -/
structure ViewedFor (all done : List AppManifest) (app : String) (cache : ManifestCache) : Prop where
  kept : leader done app = none → HoldsFor all app cache
  viewed : ∀ first, leader done app = some first → ∃ group, first.resolveGroup = .ok group ∧
    cache.view? app true = some (first.buildView group true []).value.1

def Viewed (all done : List AppManifest) (cache : ManifestCache) : Prop := ∀ app, ViewedFor all done app cache

theorem ViewedFor.congr {more : List AppManifest} {app : String} {other : ManifestCache}
    (viewed : ViewedFor all done app cache)
    (same : leader more app = leader done app)
    (stored : ∀ kind version, other.stored? app kind version = cache.stored? app kind version)
    (views : other.view? app true = cache.view? app true) : ViewedFor all more app other where
  kept none := (viewed.kept (same.symm.trans none)).congr stored views
  viewed first found := by
    obtain ⟨group, resolved, kept⟩ := viewed.viewed first (same.symm.trans found)
    exact ⟨group, resolved, views.trans kept⟩

theorem HoldsFor.knows {rest : List AppManifest} (holds : HoldsFor (done ++ manifest :: rest) manifest.appName cache)
    (first : leader done manifest.appName = none) :
    manifest.Buildable ∧ manifest.Knows (cache.entry manifest.appName).schemas := by
  constructor
  · intro kind version declared found
    have declares := AppManifest.firstDeclared_of_leader rest first found
    obtain ⟨synthesized, kept⟩ := Option.isSome_iff_exists.mp (holds.complete kind version declared declares)
    obtain ⟨other, otherDeclares, built⟩ := holds.sound kind version synthesized kept
    obtain rfl := Option.some.inj (declares.symm.trans otherDeclares)
    exact ⟨synthesized, built⟩
  · intro kind version declared synthesized found kept
    rw [← stored?_eq] at kept
    obtain ⟨other, otherDeclares, built⟩ := holds.sound kind version synthesized kept
    rw [AppManifest.firstDeclared_of_leader rest first found] at otherDeclares
    obtain rfl := Option.some.inj otherDeclares
    exact built

end ManifestCache

namespace ManifestDocument

open AppManifest (leader)
open ManifestCache (Viewed)

variable {all done rest : List AppManifest} {manifest : AppManifest}

/-- The view that the document of a manifest is made from. -/
def view (manifest : AppManifest) : BuildM ManifestView :=
  ExceptT.mk do return (← ManifestCache.manifest manifest true).mapError Error.manifest

/-- The view is that of the first manifest with kinds, alone. -/
theorem view_leads (kinds : manifest.hasKinds) :
    Leads (Viewed (done ++ manifest :: rest) done) (view manifest)
      fun view cache => (∃ first group, leader (done ++ [manifest]) manifest.appName = some first ∧
        first.resolveGroup = .ok group ∧ view = (first.buildView group true []).value.1) ∧
        Viewed (done ++ manifest :: rest) (done ++ [manifest]) cache := by
  suffices Leads (Viewed (done ++ manifest :: rest) done)
      (ExceptT.mk (ManifestCache.manifest manifest true)) _ from this.mapError
  unfold Leads
  rw [ExceptT.run_mk]
  intro cache viewed view same
  cases found : leader done manifest.appName with
  | some first =>
    obtain ⟨group, resolved, kept⟩ := (viewed manifest.appName).viewed first found
    rw [ManifestCache.manifest_hit kept] at same ⊢
    have unchanged (app : String) : leader (done ++ [manifest]) app = leader done app := by
      rw [AppManifest.leader_concat]
      split
      · rename_i here
        rw [← here.2, found]
        rfl
      · exact Option.or_none
    refine ⟨⟨first, group, (unchanged _).trans found, resolved, (Except.ok.inj same).symm⟩, fun app => ?_⟩
    exact (viewed app).congr (unchanged app) (fun _ _ => rfl) rfl
  | none =>
    have holds := (viewed manifest.appName).kept found
    cases resolved : manifest.resolveGroup with
    | error error =>
      rw [ManifestCache.manifest_fails holds.unviewed resolved] at same
      cases same
    | ok group =>
      obtain ⟨buildable, knows⟩ := holds.knows found
      obtain ⟨answered, views, stored⟩ := ManifestCache.manifest_miss holds.unviewed resolved
      rw [AppManifest.buildView_eq_fresh buildable group knows] at answered views
      have leads : leader (done ++ [manifest]) manifest.appName = some manifest := by
        rw [AppManifest.leader_concat, found, if_pos ⟨kinds, rfl⟩]
        rfl
      refine ⟨⟨manifest, group, leads, resolved, Except.ok.inj (same.symm.trans answered)⟩, fun app => ?_⟩
      by_cases here : app = manifest.appName
      · subst here
        refine ⟨fun none => ?_, fun first ofApp => ?_⟩
        · rw [leads] at none
          cases none
        · obtain rfl := Option.some.inj (leads.symm.trans ofApp)
          exact ⟨group, resolved, (views _).trans (if_pos rfl)⟩
      · refine (viewed app).congr ?_ (fun kind version => stored app kind version here)
          ((views app).trans (if_neg here))
        rw [AppManifest.leader_concat, if_neg fun both => here both.2.symm, Option.or_none]

end ManifestDocument

namespace Generator

open ManifestCache (Viewed Holds)

variable {encoding : Encoding} {apiVersion : String}

/-- The one file of an app, made from a view. -/
def filesOfView (encoding : Encoding) (apiVersion app : String) (view : ManifestView) : BuildM (List Artifact) := do
  let kinds ← (KindDefinition.mergeAll view.kinds).mapM (ListedKind.build view)
  let content : ManifestDocument := ⟨apiVersion, view.appName, view.group, kinds⟩
  return [(document encoding ("manifests/" ++ app) content.toJson).stamp ["manifest"]]

theorem manifests_single : (manifests encoding apiVersion).shape ≠ .manyToOne := by
  simp [shape, manifests]

theorem manifests_run (manifest : AppManifest) : (manifests encoding apiVersion).run [manifest] =
    ManifestDocument.view manifest >>= filesOfView encoding apiVersion manifest.appName := by
  simp only [run, Generator.generate, manifests, ManifestDocument.build, List.mapM_cons, List.mapM_nil, bind_assoc,
    pure_bind]
  exact bind_congr fun view => bind_congr fun kinds => rfl

theorem filesOfView_settled {holds : ManifestCache → Prop} {app : String} {view : ManifestView} :
    Settled holds (filesOfView encoding apiVersion app view) := by
  refine Settled.bind (Settled.mapM fun kind _ => ?_) fun _ => Settled.pure
  unfold ListedKind.build
  exact Settled.ofGraph.bind fun _ => Settled.ofSchema.bind fun _ => Settled.pure

/-- What is made of the view of a manifest is what the manifest has alone. -/
theorem alone_of_view {manifest : AppManifest} {group : String} (resolved : manifest.resolveGroup = .ok group)
    (cache : ManifestCache) :
    (manifests encoding apiVersion).alone manifest =
      ((filesOfView encoding apiVersion manifest.appName
        (manifest.buildView group true []).value.1).run.run cache).value.1 := by
  obtain ⟨answered, _⟩ := ManifestCache.manifest_miss (ManifestCache.view?_empty manifest.appName true) resolved
  have viewed : ((ManifestDocument.view manifest).run.run .empty).value.1 =
      .ok (manifest.buildView group true []).value.1 := congrArg (Except.mapError Error.manifest) answered
  unfold alone
  rw [manifests_run, run_bind_of_ok viewed]
  have settled : Settled (fun _ => True) (filesOfView encoding apiVersion manifest.appName
    (manifest.buildView group true []).value.1) := filesOfView_settled
  exact settled.eq trivial trivial

theorem manifests_leads {done rest : List AppManifest} {manifest : AppManifest} (kinds : manifest.hasKinds) :
    Leads (Viewed (done ++ manifest :: rest) done) ((manifests encoding apiVersion).run [manifest]) fun made cache =>
      (manifests encoding apiVersion).alone (manifest.standIn done) = .ok made ∧
        Viewed (done ++ manifest :: rest) (done ++ [manifest]) cache := by
  rw [manifests_run]
  refine (ManifestDocument.view_leads kinds).bind fun view => Leads.given ?_
  rintro ⟨first, group, found, resolved, rfl⟩ cache viewed made same
  have settled : Settled (Viewed (done ++ manifest :: rest) (done ++ [manifest]))
    (filesOfView encoding apiVersion manifest.appName (first.buildView group true []).value.1) := filesOfView_settled
  refine ⟨?_, settled.keeps viewed⟩
  rw [AppManifest.standIn_of_leader kinds found, alone_of_view resolved cache, (AppManifest.leader_spec found).2]
  exact same

/-- In a batch, a manifest has the document that the first manifest of its app with kinds has alone. -/
theorem manifests_batch (inputs : List AppManifest) : Leads (Holds inputs)
    (((manifests encoding apiVersion).filter AppManifest.hasKinds).run inputs) fun files cache =>
      (∃ made, files = List.flatten made ∧ Aligned (fun before manifest made =>
        ((manifests encoding apiVersion).filter AppManifest.hasKinds).alone (manifest.standIn before) = .ok made)
        [] inputs made) ∧ Viewed inputs inputs cache := by
  refine Leads.strengthen (run_leads (by rw [shape_filter]; exact manifests_single) (Viewed inputs) inputs ?_)
    fun cache holds app =>
    ⟨fun _ => holds app, nofun⟩
  rintro done manifest rest rfl cache viewed made same
  rw [run_filter manifests_single] at same ⊢
  unfold alone
  rw [run_filter manifests_single]
  by_cases kinds : manifest.hasKinds
  · rw [if_pos kinds] at same ⊢
    rw [if_pos (AppManifest.hasKinds_standIn kinds done)]
    exact manifests_leads kinds cache viewed made same
  · have own : manifest.standIn done = manifest := if_neg kinds
    rw [if_neg kinds] at same ⊢
    rw [own, if_neg kinds]
    refine ⟨same, fun app => (viewed app).congr ?_ (fun _ _ => rfl) rfl⟩
    rw [AppManifest.leader_concat, if_neg fun both => kinds both.1, Option.or_none]

end Generator

end ResourceKinds
