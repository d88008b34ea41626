import ResourceKinds.Proofs.Generator.KindByKind
import ResourceKinds.Proofs.Generator.SplitKinds
import ResourceKinds.Proofs.Kind.Selection

namespace ResourceKinds

open KindDefinition (mergeAll ofKind)

namespace ResourceDefinition

variable {manifest : AppManifest} {preferred : Fields String} {kind : KindDefinition} {definition : ResourceDefinition}

/-- A selected kind keeps its definition. -/
theorem alone_restrict {selector : KindSelector} (inside : kind ∈ mergeAll manifest.kinds)
    (accepted : selector.accepts kind = true) (built : alone preferred manifest kind = .ok definition) :
    alone preferred (selector.restrict manifest) kind = .ok definition := by
  obtain ⟨group, resolved⟩ := exists_group_of_alone inside built
  obtain ⟨graph, wired, describes⟩ := (alone_eq_ok inside).mp built
  have left : kind ∈ mergeAll (selector.restrict manifest).kinds := by
    rw [selector.mergeAll_restrict manifest]
    exact List.mem_filter.mpr ⟨inside, accepted⟩
  refine (alone_eq_ok left).mpr ⟨graph, wired, describes.versions.imp fun version defined => ?_, describes.rest⟩
  rintro ⟨synthesized, schema, own, stated⟩
  exact ⟨synthesized, schema, (KindSelector.schemaOf_restrict resolved inside accepted version.name).trans own, stated⟩

end ResourceDefinition

namespace KindSelector

/-- Selecting kinds takes the merged kinds that are accepted, each with all of its definitions. Where the whole manifest
has definitions, the selected kinds keep theirs, file by file. -/
theorem definitions_restrict (selector : KindSelector) (encoding : Encoding) (preferred : Fields String)
    (manifest : AppManifest) :
    mergeAll (selector.restrict manifest).kinds = (mergeAll manifest.kinds).filter selector.accepts ∧
    (∀ group kind, ofKind (selector.restrict manifest).kinds group kind = ofKind manifest.kinds group kind ∨
      ofKind (selector.restrict manifest).kinds group kind = []) ∧
    ∀ files, (Generator.definitions encoding preferred).alone manifest = .ok files →
      List.Forall₂ (Generator.Defines encoding preferred manifest) (mergeAll manifest.kinds) files ∧
      (Generator.definitions encoding preferred).alone (selector.restrict manifest) =
        .ok ((((mergeAll manifest.kinds).zip files).filter (selector.accepts ·.1)).map Prod.snd) := by
  refine ⟨selector.mergeAll_restrict manifest, selector.goesByName.ofKind_filter manifest.kinds, fun files made => ?_⟩
  have defined := Generator.definitions_alone_eq_ok.mp made
  refine ⟨defined, Generator.definitions_alone_eq_ok.mpr ?_⟩
  rw [selector.mergeAll_restrict manifest]
  refine forall₂_filter_zip defined fun kind inside accepted file => ?_
  rintro ⟨definition, built, rfl⟩
  exact ⟨definition, ResourceDefinition.alone_restrict inside accepted built, rfl⟩

end KindSelector

namespace AppManifest

def deskFile : Artifact :=
  Generator.definitionFile .json (deskKind "Desk" none ["v1", "v2"])
    (deskDefinition (deskKind "Desk" none ["v1", "v2"]) ⟨"desks.dev", "Desk", "v2", false, ["v1", "v2"]⟩)

def lampFile : Artifact :=
  Generator.definitionFile .json (deskKind "Lamp" none ["v1"])
    (deskDefinition (deskKind "Lamp" none ["v1"]) ⟨"desks.dev", "Lamp", "v1", false, ["v1"]⟩)

theorem mergeAll_desks : mergeAll splitDesks.kinds = [deskKind "Desk" none ["v1", "v2"], deskKind "Lamp" none ["v1"]] :=
  rfl

theorem definitions_desks : (Generator.definitions .json []).alone splitDesks = .ok [deskFile, lampFile] := by
  have resolved : splitDesks.resolveGroup = .ok "desks.dev" := rfl
  have desk : deskKind "Desk" none ["v1", "v2"] ∈ mergeAll splitDesks.kinds := by simp [mergeAll_desks]
  have lamp : deskKind "Lamp" none ["v1"] ∈ mergeAll splitDesks.kinds := by simp [mergeAll_desks]
  have deskWired : (deskKind "Desk" none ["v1", "v2"]).wire none =
    .ok ⟨"desks.dev", "Desk", "v2", false, ["v1", "v2"]⟩ := rfl
  have lampWired : (deskKind "Lamp" none ["v1"]).wire none = .ok ⟨"desks.dev", "Lamp", "v1", false, ["v1"]⟩ := rfl
  rw [Generator.definitions_alone_eq_ok, mergeAll_desks]
  have first : ResourceDefinition.alone [] splitDesks (deskKind "Desk" none ["v1", "v2"]) = _ :=
    alone_desk resolved desk deskWired
  have second : ResourceDefinition.alone [] splitDesks (deskKind "Lamp" none ["v1"]) = _ :=
    alone_desk resolved lamp lampWired
  exact .cons ⟨_, first, rfl⟩ (.cons ⟨_, second, rfl⟩ .nil)

/-- Without the desks, from which the manifest has its group, the lamps keep their definition. -/
theorem definitions_restrict_lamps :
    (Generator.definitions .json []).alone splitDesks = .ok [deskFile, lampFile] ∧
    ((KindSelector.ofText "Lamp").restrict splitDesks).kinds = [deskKind "Lamp" none ["v1"]] ∧
    (Generator.definitions .json []).alone ((KindSelector.ofText "Lamp").restrict splitDesks) = .ok [lampFile] := by
  have accepted : (KindSelector.ofText "Lamp").accepts (deskKind "Lamp" none ["v1"]) = true := by cbv
  have refused : (KindSelector.ofText "Lamp").accepts (deskKind "Desk" none ["v1", "v2"]) = false := by cbv
  have selected := ((KindSelector.ofText "Lamp").definitions_restrict .json [] splitDesks).2.2
    [deskFile, lampFile] definitions_desks
  refine ⟨definitions_desks, by cbv, selected.2.trans ?_⟩
  rw [mergeAll_desks]
  simp only [List.zip_cons_cons, List.zip_nil_right, List.filter_cons, accepted, refused]
  rfl

end AppManifest

end ResourceKinds
