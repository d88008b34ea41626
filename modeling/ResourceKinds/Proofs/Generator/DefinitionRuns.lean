import ResourceKinds.Proofs.Generator.Runs
import ResourceKinds.Proofs.Generator.SharedSchemas

namespace ResourceKinds

variable {seen : List AppManifest} {manifest : AppManifest}

namespace ResourceDefinition

open ManifestCache (Gathers Faithful)

theorem buildVersion_gathers {asked : String → String → Prop} (kind hub : String) (version : KindVersion) :
    Leads (Gathers seen manifest asked) (buildVersion manifest kind hub version) fun _ =>
      Gathers seen manifest fun name other => asked name other ∨ name = kind ∧ other = version.name := by
  unfold buildVersion
  refine (ManifestCache.kindVersionSchema_gathers kind version.name).bind fun synthesized => ?_
  refine Leads.ofSchema.bind fun _ => Leads.given fun _ => ?_
  refine Leads.ofExcept.bind fun schema => Leads.given fun _ => ?_
  exact Leads.pure fun cache gathers => gathers

theorem build_gathers {asked : String → String → Prop} (preferred : Fields String) (kind : KindDefinition) :
    Leads (Gathers seen manifest asked) (build preferred manifest kind) fun _ =>
      Gathers seen manifest fun name other => asked name other ∨
        name = kind.kind ∧ ∃ version ∈ kind.versions, version.name = other := by
  unfold build
  refine Leads.ofGraph.bind fun graph => Leads.given fun _ => ?_
  let asks (done : List KindVersion) (name other : String) : Prop :=
    asked name other ∨ name = kind.kind ∧ ∃ version ∈ done, version.name = other
  refine (Leads.keeps (fun done => Gathers seen manifest (asks done)) _ ?_ fun done version => ?_).bind fun _ => ?_
  · refine fun cache gathers => gathers.mono ?_
    rintro name other (before | ⟨_, _, nowhere, _⟩)
    · exact before
    · cases nowhere
  · refine (buildVersion_gathers kind.kind graph.hub version).weaken fun _ cache gathers => gathers.mono ?_
    rintro name other (before | ⟨named, another, inside, versionNamed⟩)
    · exact .inl (.inl before)
    · rcases List.mem_append.mp inside with before | here
      · exact .inl (.inr ⟨named, another, before, versionNamed⟩)
      · obtain rfl := List.mem_singleton.mp here
        exact .inr ⟨named, versionNamed.symm⟩
  · exact Leads.pure fun cache gathers => gathers

theorem buildVersion_gives {kind : String} (hub : String) (version : KindVersion) {cache later : ManifestCache}
    {synthesized : Synthesized} {schema : Json}
    (known : Gives cache (ExceptT.mk (ManifestCache.kindVersionSchema manifest kind version.name)) synthesized later)
    (selectable : synthesized.schema.checkSelectable kind version.name version.selectableFields = .ok ())
    (restated : Json.restateSchema synthesized.schema.toJson = .ok schema) :
    Gives cache (buildVersion manifest kind hub version) ⟨version.name, version.served, version.name = hub, schema,
      synthesized.subresources.contains DefinedVersion.statusProperty, version.selectableFields, version.printerColumns⟩
      later := by
  unfold buildVersion
  have stated : (Json.restateSchema synthesized.schema.toJson).mapError Error.json = .ok schema := by
    rw [restated]
    rfl
  exact known.bind ((Gives.ofSchema selectable).bind ((Gives.ofExcept stated).bind Gives.pure))

theorem buildVersion_settled {kind hub : String} {version : KindVersion}
    (declared : (manifest.kindVersion? kind version.name).isSome = true) :
    Settled (Faithful manifest) (buildVersion manifest kind hub version) := by
  unfold buildVersion
  have asked : Settled (Faithful manifest) (ExceptT.mk (ManifestCache.kindVersionSchema manifest kind version.name)) :=
    ⟨_, ManifestCache.kindVersionSchema_faithful declared⟩
  exact asked.bind fun _ => Settled.ofSchema.bind fun _ => Settled.ofExcept.bind fun _ => Settled.pure

theorem build_settled (preferred : Fields String) {kind : KindDefinition}
    (inside : kind ∈ KindDefinition.mergeAll manifest.kinds) :
    Settled (Faithful manifest) (build preferred manifest kind) := by
  unfold build
  refine Settled.ofGraph.bind fun graph => Settled.bind (Settled.mapM fun version declared => ?_) fun _ => Settled.pure
  exact buildVersion_settled (AppManifest.isSome_kindVersion?_of_merged inside declared)

end ResourceDefinition

namespace Generator

open ManifestCache (Gathers Holds Faithful)

variable {encoding : Encoding} {preferred : Fields String}

theorem definitions_single : (definitions encoding preferred).shape ≠ .manyToOne := by
  simp [shape, definitions]

/-- A manifest whose definitions have been made has asked for all of its versions. -/
theorem definitions_holds : Leads (Holds seen) ((definitions encoding preferred).run [manifest]) fun _ =>
    Holds (seen ++ [manifest]) := by
  let asks (done : List KindDefinition) (name other : String) : Prop :=
    ∃ kind ∈ done, name = kind.kind ∧ ∃ version ∈ kind.versions, version.name = other
  simp only [run, Generator.generate, definitions, List.mapM_cons, List.mapM_nil, bind_assoc, pure_bind]
  refine (Leads.keeps (fun done => Gathers seen manifest (asks done)) _ ?_ fun done kind => ?_).bind fun _ => ?_
  · refine fun cache holds => (holds.gathers manifest).mono ?_
    rintro name other ⟨_, nowhere, _⟩
    exact absurd nowhere List.not_mem_nil
  · refine (ResourceDefinition.build_gathers preferred kind).bind fun _ => Leads.pure fun cache gathers => ?_
    refine gathers.mono ?_
    rintro name other ⟨another, inside, named, declares⟩
    rcases List.mem_append.mp inside with before | here
    · exact .inl ⟨another, before, named, declares⟩
    · obtain rfl := List.mem_singleton.mp here
      exact .inr ⟨named, declares⟩
  · refine Leads.pure fun cache gathers => gathers.holds fun kind version declared found => ?_
    obtain ⟨definition, inKinds, rfl, declares, rfl⟩ := AppManifest.mem_of_kindVersion? found
    obtain ⟨merged, inMerged, _, named, declares⟩ :=
      KindDefinition.exists_declaring_mergeAll.mpr ⟨definition, inKinds, rfl, rfl, declares⟩
    exact ⟨merged, inMerged, named.symm, declared, declares, rfl⟩

theorem definitions_settled : Settled (Faithful manifest) ((definitions encoding preferred).run [manifest]) := by
  simp only [run, Generator.generate, definitions, List.mapM_cons, List.mapM_nil, bind_assoc, pure_bind]
  refine Settled.bind (Settled.mapM fun kind inside => ?_) fun _ => Settled.pure
  exact (ResourceDefinition.build_settled preferred inside).bind fun _ => Settled.pure

/-- In a batch, a manifest that agrees with those before it has the definitions that it has alone. -/
theorem definitions_batch (manifests : List AppManifest) : Leads (Holds [])
    (((definitions encoding preferred).filter AppManifest.hasKinds).run manifests) fun files cache =>
      (∃ made, files = List.flatten made ∧ Aligned (fun before manifest made => manifest.Agrees before →
        ((definitions encoding preferred).filter AppManifest.hasKinds).alone manifest = .ok made) [] manifests made) ∧
      Holds manifests cache := by
  refine run_leads (by rw [shape_filter]; exact definitions_single) Holds manifests ?_
  intro done manifest rest _ cache holds made same
  unfold alone
  rw [run_filter definitions_single] at same ⊢
  by_cases kinds : manifest.hasKinds
  · rw [if_pos kinds] at same ⊢
    refine ⟨fun agrees => ?_, definitions_holds cache holds made same⟩
    rw [← same]
    exact definitions_settled.eq (ManifestCache.faithful_empty manifest) (holds.faithful agrees)
  · rw [if_neg kinds] at same ⊢
    obtain rfl : [] = made := Except.ok.inj same
    exact ⟨fun _ => rfl, holds.concat_of_not_hasKinds kinds⟩

end Generator

end ResourceKinds
