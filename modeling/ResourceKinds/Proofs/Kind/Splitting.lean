import Mathlib.Data.List.Nodup
import ResourceKinds.Proofs.Kind.Declarations
import ResourceKinds.Proofs.Kind.MergedParts
import ResourceKinds.Proofs.Kind.Wiring

namespace ResourceKinds

namespace KindDefinition

/-- Pieces of a definition: they differ from it in their versions, which are its own. -/
structure IsCut (whole : KindDefinition) (pieces : List KindDefinition) : Prop where
  some : pieces ≠ []
  fields : ∀ piece ∈ pieces, piece = { whole with versions := piece.versions }
  versions : (pieces.flatMap versions).Perm whole.versions

theorem IsCut.subset {whole piece : KindDefinition} {pieces : List KindDefinition} (cut : IsCut whole pieces)
    (inside : piece ∈ pieces) : piece.versions ⊆ whole.versions :=
  fun _ declared => cut.versions.subset (List.mem_flatMap.mpr ⟨piece, inside, declared⟩)

/-- What merging takes from the first definition alone. -/
def bare (definition : KindDefinition) : KindDefinition := { definition with versions := [], preferredVersion := none }

/-- Every version with what its definition says apart from the versions. -/
def tagged (definitions : List KindDefinition) : List (KindVersion × KindDefinition × Option String) :=
  definitions.flatMap fun definition =>
    definition.versions.map fun version => (version, definition.bare, definition.preferredVersion)

theorem mem_tagged {definitions : List KindDefinition} {version : KindVersion}
    {rest : KindDefinition × Option String} : (version, rest) ∈ tagged definitions ↔
      ∃ definition ∈ definitions, version ∈ definition.versions ∧
        rest = (definition.bare, definition.preferredVersion) := by
  simp [tagged, eq_comm]

theorem map_fst_tagged (definitions : List KindDefinition) :
    (tagged definitions).map Prod.fst = definitions.flatMap versions := by
  simp [tagged, List.map_flatMap, Function.comp_def]

theorem findSome?_tagged {definitions : List KindDefinition}
    (some : ∀ definition ∈ definitions, definition.versions ≠ []) :
    (tagged definitions).findSome? (·.2.2) = definitions.findSome? preferredVersion := by
  induction definitions with
  | nil => rfl
  | cons first rest ih =>
    obtain ⟨declares, some⟩ := List.forall_mem_cons.mp some
    obtain ⟨version, versions, declared⟩ := List.exists_cons_of_ne_nil declares
    have own : (first.versions.map fun version => (version, first.bare, first.preferredVersion)).findSome? (·.2.2) =
        first.preferredVersion := by
      rw [declared, List.findSome?_map]
      cases first.preferredVersion <;> simp [Function.comp_def]
    have later := ih some
    unfold tagged at later ⊢
    rw [List.flatMap_cons, List.findSome?_append, later, own, List.findSome?_cons]
    cases first.preferredVersion <;> rfl

theorem joined_congr {first other : KindDefinition} {rest more : List KindDefinition} (lead : first.bare = other.bare)
    (versions : (first :: rest).flatMap versions = (other :: more).flatMap versions)
    (preferred : (first :: rest).findSome? preferredVersion = (other :: more).findSome? preferredVersion) :
    joined first rest = joined other more := by
  unfold joined
  rw [versions, preferred]
  exact congrArg (fun bare : KindDefinition => { bare with
    versions := (other :: more).flatMap KindDefinition.versions
    preferredVersion := (other :: more).findSome? preferredVersion }) lead

/-- Where each definition has versions, the versions and what comes with them tell the merged definition. -/
theorem joined_eq_of_tagged {first other : KindDefinition} {rest more : List KindDefinition}
    (some : ∀ definition ∈ first :: rest, definition.versions ≠ [])
    (someToo : ∀ definition ∈ other :: more, definition.versions ≠ [])
    (same : tagged (first :: rest) = tagged (other :: more)) : joined first rest = joined other more := by
  refine joined_congr ?_ ?_ ?_
  · obtain ⟨version, versions, declared⟩ := List.exists_cons_of_ne_nil (some first (List.mem_cons_self ..))
    obtain ⟨later, others, declaredToo⟩ := List.exists_cons_of_ne_nil (someToo other (List.mem_cons_self ..))
    simp only [tagged, List.flatMap_cons, declared, declaredToo, List.map_cons, List.cons_append] at same
    exact (Prod.mk.inj (Prod.mk.inj (List.cons.inj same).1).2).1
  · rw [← map_fst_tagged, same, map_fst_tagged]
  · rw [← findSome?_tagged some, same, findSome?_tagged someToo]

/-- Versions that differ from each other tell apart what comes with them. -/
theorem tagged_eq_of_subset {definitions others : List KindDefinition}
    (versions : others.flatMap versions = definitions.flatMap versions)
    (distinct : (definitions.flatMap KindDefinition.versions).Nodup)
    (subset : tagged others ⊆ tagged definitions) : tagged others = tagged definitions := by
  rw [← map_fst_tagged, ← map_fst_tagged] at versions
  rw [← map_fst_tagged] at distinct
  refine List.ext_getElem (by simpa using congrArg List.length versions) fun position before within => ?_
  refine List.inj_on_of_nodup_map distinct (subset (List.getElem_mem before)) (List.getElem_mem within) ?_
  simpa [before, within] using congrArg (·[position]?) versions

end KindDefinition

open KindDefinition (ofKind mergeAll IsCut)

/-- The order in which merging leaves the kinds of a manifest, and the versions of each. -/
def AppManifest.order (manifest : AppManifest) : List ((String × String) × List KindVersion) :=
  (mergeAll manifest.kinds).map fun merged => (merged.name, merged.versions)

/-- The second manifest has the definitions of the first in pieces, which leave the merged order as it is. -/
structure AppManifest.Splits (whole split : AppManifest) : Prop where
  appName : split.appName = whole.appName
  group : split.group = whole.group
  pieces : ∃ parts, List.Forall₂ IsCut whole.kinds parts ∧ parts.flatten.Perm split.kinds
  order : split.order = whole.order

/-- The first definition of the kind says the same apart from its versions and its preference, and the first
preference is the same. -/
def AppManifest.KeepsLead (whole split : AppManifest) (group kind : String) : Prop :=
  (ofKind split.kinds group kind).head?.map KindDefinition.bare =
      (ofKind whole.kinds group kind).head?.map KindDefinition.bare ∧
    (ofKind split.kinds group kind).findSome? KindDefinition.preferredVersion =
      (ofKind whole.kinds group kind).findSome? KindDefinition.preferredVersion

/-- Where a kind with versions of different names has pieces without versions, its lead is kept. -/
def AppManifest.KeepsLeads (whole split : AppManifest) : Prop :=
  ∀ group kind, (∃ piece ∈ ofKind split.kinds group kind, piece.versions = []) →
    (∃ definition ∈ ofKind whole.kinds group kind, definition.versions ≠ []) →
    ((ofKind whole.kinds group kind).flatMap KindDefinition.versionNames).Nodup → whole.KeepsLead split group kind

namespace AppManifest

/-- Pieces that all have versions keep all leads. -/
theorem keepsLeads_of_versions {whole split : AppManifest} (some : ∀ piece ∈ split.kinds, piece.versions ≠ []) :
    whole.KeepsLeads split :=
  fun _ _ ⟨piece, inside, nothing⟩ => absurd nothing (some piece (KindDefinition.mem_ofKind.mp inside).1)

/-- The versions of a kind, whichever of the kind's definitions declare them. -/
def versionsOf (manifest : AppManifest) (kind : String) : List KindVersion :=
  (manifest.kinds.filter fun definition => definition.kind = kind).flatMap KindDefinition.versions

theorem versionsOf_eq {manifest : AppManifest} {group : String} (resolved : manifest.resolveGroup = .ok group)
    (kind : String) :
    manifest.versionsOf kind = (ofKind manifest.kinds group kind).flatMap KindDefinition.versions := by
  unfold versionsOf ofKind
  refine congrArg (List.flatMap KindDefinition.versions) (List.filter_congr fun definition inside => ?_)
  simp [(group_of_resolveGroup resolved definition inside).1]

theorem kindVersion?_eq_versionsOf (manifest : AppManifest) (kind version : String) :
    manifest.kindVersion? kind version = (manifest.versionsOf kind).find? fun declared => declared.name = version :=
  List.find?_flatMap.symm

end AppManifest

namespace AppManifest.Splits

variable {whole split : AppManifest}

theorem exists_whole (splits : whole.Splits split) {piece : KindDefinition} (inside : piece ∈ split.kinds) :
    ∃ definition ∈ whole.kinds, piece = { definition with versions := piece.versions } ∧
      piece.versions ⊆ definition.versions := by
  obtain ⟨parts, cuts, pieces⟩ := splits.pieces
  obtain ⟨part, inParts, inPart⟩ := List.mem_flatten.mp (pieces.mem_iff.mpr inside)
  obtain ⟨definition, inKinds, cut⟩ := (exists_of_forall₂ cuts).1 part inParts
  exact ⟨definition, inKinds, cut.fields piece inPart, cut.subset inPart⟩

theorem exists_piece (splits : whole.Splits split) {definition : KindDefinition} (inside : definition ∈ whole.kinds) :
    ∃ piece ∈ split.kinds, piece = { definition with versions := piece.versions } ∧
      piece.versions ⊆ definition.versions := by
  obtain ⟨parts, cuts, pieces⟩ := splits.pieces
  obtain ⟨part, inParts, cut⟩ := (exists_of_forall₂ cuts).2 definition inside
  obtain ⟨piece, inPart⟩ := List.exists_mem_of_ne_nil part cut.some
  exact ⟨piece, pieces.mem_iff.mp (List.mem_flatten.mpr ⟨part, inParts, inPart⟩), cut.fields piece inPart,
    cut.subset inPart⟩

theorem names (splits : whole.Splits split) :
    (mergeAll split.kinds).map KindDefinition.name = (mergeAll whole.kinds).map KindDefinition.name := by
  simpa [AppManifest.order, Function.comp_def] using congrArg (List.map Prod.fst) splits.order

/-- A kind that is merged from definitions that all have versions, of different names, is merged from their pieces
in the same way. -/
theorem joined_eq (splits : whole.Splits split) {group kind : String} {first piece : KindDefinition}
    {rest pieces : List KindDefinition} (definitions : ofKind whole.kinds group kind = first :: rest)
    (cut : ofKind split.kinds group kind = piece :: pieces)
    (same : (piece :: pieces).flatMap KindDefinition.versions = (first :: rest).flatMap KindDefinition.versions)
    (distinct : ((first :: rest).flatMap KindDefinition.versions).Nodup)
    (some : ∀ piece ∈ ofKind split.kinds group kind, piece.versions ≠ []) :
    KindDefinition.joined piece pieces = KindDefinition.joined first rest := by
  refine KindDefinition.joined_eq_of_tagged (by rwa [← cut]) ?_
    (KindDefinition.tagged_eq_of_subset same distinct ?_)
  · rw [← definitions]
    intro definition inside
    obtain ⟨inKinds, inGroup, named⟩ := KindDefinition.mem_ofKind.mp inside
    obtain ⟨piece, inPieces, fields, subset⟩ := splits.exists_piece inKinds
    have declares := some piece (KindDefinition.mem_ofKind.mpr ⟨inPieces, by rw [fields]; exact ⟨inGroup, named⟩⟩)
    exact fun nothing => declares (List.subset_nil.mp (nothing ▸ subset))
  · rw [← cut, ← definitions]
    rintro ⟨version, rest⟩ tag
    obtain ⟨piece, inside, declared, rfl⟩ := KindDefinition.mem_tagged.mp tag
    obtain ⟨inPieces, inGroup, named⟩ := KindDefinition.mem_ofKind.mp inside
    obtain ⟨definition, inKinds, fields, subset⟩ := splits.exists_whole inPieces
    refine KindDefinition.mem_tagged.mpr ⟨definition, KindDefinition.mem_ofKind.mpr ⟨inKinds, ?_⟩, subset declared, ?_⟩
    · rw [fields] at inGroup named
      exact ⟨inGroup, named⟩
    · rw [fields]
      rfl

/-- A kind whose versions have different names is merged to the same definition. -/
theorem merged_eq (splits : whole.Splits split) (leads : whole.KeepsLeads split) {merged cut : KindDefinition}
    (inWhole : merged ∈ mergeAll whole.kinds) (inSplit : cut ∈ mergeAll split.kinds) (named : cut.name = merged.name)
    (same : cut.versions = merged.versions) (some : merged.versions ≠ []) (distinct : merged.versionNames.Nodup) :
    cut = merged := by
  obtain ⟨first, rest, definitions, made⟩ := KindDefinition.mem_mergeAll inWhole
  obtain ⟨piece, pieces, parts, madeToo⟩ := KindDefinition.mem_mergeAll inSplit
  obtain ⟨inGroup, ofName⟩ := Prod.mk.inj named
  rw [inGroup, ofName] at parts
  have versions : merged.versions = (first :: rest).flatMap KindDefinition.versions := congrArg (·.versions) made
  have versionsToo : cut.versions = (piece :: pieces).flatMap KindDefinition.versions := congrArg (·.versions) madeToo
  rw [versions, versionsToo] at same
  have names : merged.versionNames =
      (ofKind whole.kinds merged.group merged.kind).flatMap KindDefinition.versionNames := by
    rw [KindDefinition.versionNames, versions, definitions, List.map_flatMap]
    rfl
  rw [made, madeToo]
  by_cases bare : ∃ piece ∈ ofKind split.kinds merged.group merged.kind, piece.versions = []
  · have declares : ∃ definition ∈ ofKind whole.kinds merged.group merged.kind, definition.versions ≠ [] := by
      rw [versions, ← definitions] at some
      simpa using some
    obtain ⟨lead, preferred⟩ := leads merged.group merged.kind bare declares (names ▸ distinct)
    rw [parts, definitions] at lead preferred
    exact KindDefinition.joined_congr (Option.some.inj lead) same preferred
  · refine splits.joined_eq definitions parts same ?_ fun piece inside nothing => bare ⟨piece, inside, nothing⟩
    rw [← versions]
    exact distinct.of_map

/-- Kind by kind, what is merged from the pieces is what is merged from the definitions, or neither can be wired. -/
theorem forall₂_merged (splits : whole.Splits split) (leads : whole.KeepsLeads split) :
    List.Forall₂ KindDefinition.Alike (mergeAll split.kinds) (mergeAll whole.kinds) := by
  have aligned : List.Forall₂ (fun cut merged => (cut.name, cut.versions) = (merged.name, merged.versions))
      (mergeAll split.kinds) (mergeAll whole.kinds) := by
    have order : List.Forall₂ (· = ·) split.order whole.order := by
      rw [List.forall₂_eq_eq_eq]
      exact splits.order
    exact List.forall₂_map_left_iff.mp (List.forall₂_map_right_iff.mp order)
  refine List.forall₂_iff_zip.mpr ⟨aligned.length_eq, fun {cut merged} inside => ?_⟩
  obtain ⟨named, same⟩ := Prod.mk.inj (List.forall₂_zip aligned inside)
  obtain ⟨inGroup, ofName⟩ := Prod.mk.inj named
  obtain ⟨inSplit, inWhole⟩ := List.of_mem_zip inside
  by_cases flawed : cut.versions = [] ∨ ¬ cut.versionNames.Nodup
  · exact .inr (KindDefinition.exists_unwirable inGroup ofName same flawed)
  · simp only [not_or, not_not] at flawed
    have names : cut.versionNames = merged.versionNames := congrArg (List.map KindVersion.name) same
    exact .inl (splits.merged_eq leads inWhole inSplit named same (same ▸ flawed.1) (names ▸ flawed.2))

theorem versions_ofKind (splits : whole.Splits split) (group kind : String) :
    (ofKind split.kinds group kind).flatMap KindDefinition.versions =
      (ofKind whole.kinds group kind).flatMap KindDefinition.versions := by
  by_cases named : (group, kind) ∈ (mergeAll whole.kinds).map KindDefinition.name
  · obtain ⟨merged, inWhole, named⟩ := List.mem_map.mp named
    have inOrder : (merged.name, merged.versions) ∈ split.order := by
      rw [splits.order]
      exact List.mem_map_of_mem inWhole
    obtain ⟨cut, inSplit, same⟩ := List.mem_map.mp inOrder
    obtain ⟨sameName, sameVersions⟩ := Prod.mk.inj same
    have merging := KindDefinition.versions_of_merged inWhole named
    rw [← merging, ← sameVersions]
    exact (KindDefinition.versions_of_merged inSplit (sameName.trans named)).symm
  · rw [KindDefinition.ofKind_eq_nil named, KindDefinition.ofKind_eq_nil (splits.names ▸ named)]

theorem resolveGroup (splits : whole.Splits split) : split.resolveGroup = whole.resolveGroup :=
  AppManifest.resolveGroup_congr splits.appName splits.group splits.names

/-- In manifests with a group, a kind has the same versions in the same order. -/
theorem versionsOf (splits : whole.Splits split) {group : String} (resolved : whole.resolveGroup = .ok group)
    (kind : String) : split.versionsOf kind = whole.versionsOf kind := by
  rw [AppManifest.versionsOf_eq resolved, AppManifest.versionsOf_eq (splits.resolveGroup.trans resolved),
    splits.versions_ofKind]

end AppManifest.Splits

end ResourceKinds
