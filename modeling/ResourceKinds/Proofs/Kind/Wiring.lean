import Mathlib.Data.List.Induction
import ResourceKinds.Conversion.Graph
import ResourceKinds.Proofs.Result

namespace ResourceKinds

namespace KindDefinition

/-- What a graph says about the kind it was made for. -/
structure Wired (definition : KindDefinition) (graph : VersionGraph) : Prop where
  group : graph.group = definition.group
  kind : graph.kind = definition.kind
  versions : graph.versions = definition.versionNames
  hub : graph.hub ∈ definition.versionNames

theorem electHub_mem {kind : KindDefinition} {last : KindVersion} {preferred : Option String} {hub : String}
    (inside : last ∈ kind.versions) (elected : kind.electHub last preferred = .ok hub) : hub ∈ kind.versionNames := by
  unfold electHub at elected
  split at elected
  · split at elected
    · rename_i version _ contained
      obtain rfl := Except.ok.inj elected
      simpa using contained
    · cases elected
  · obtain rfl := Except.ok.inj elected
    exact List.mem_map_of_mem inside

theorem electHub_of_declared {kind : KindDefinition} {preferred : Option String} (last : KindVersion)
    (declared : ∀ version, kind.preference preferred = some version → version ∈ kind.versionNames) :
    kind.electHub last preferred = .ok ((kind.preference preferred).getD last.name) := by
  unfold electHub
  cases prefers : kind.preference preferred with
  | none => rfl
  | some version =>
    have contained : kind.versionNames.contains version = true := by simpa using declared version prefers
    exact if_pos contained

theorem electHub_of_undeclared {kind : KindDefinition} {preferred : Option String} {last : KindVersion}
    {version : String} (prefers : kind.preference preferred = some version) (undeclared : version ∉ kind.versionNames) :
    kind.electHub last preferred = .error (.preferredVersionNotFound kind.group kind.kind version) := by
  have missing : ¬ kind.versionNames.contains version = true := by simpa using undeclared
  simp only [electHub, prefers, if_neg missing]

theorem wire_cons {kind : KindDefinition} {first : KindVersion} {rest : List KindVersion}
    (declared : kind.versions = first :: rest) (preferred : Option String) : kind.wire preferred = do
      checkVersions kind first [] (first :: rest)
      let hub ← kind.electHub ((first :: rest).getLast (List.cons_ne_nil _ _)) preferred
      return ⟨kind.group, kind.kind, hub, first.conversion, kind.versionNames⟩ := by
  unfold wire
  split
  · rename_i nothing
    rw [declared] at nothing
    cases nothing
  · rename_i other more same
    obtain ⟨rfl, rfl⟩ := List.cons.inj (declared.symm.trans same)
    rw [declared]

theorem getLast?_versionNames {kind : KindDefinition} {first : KindVersion} {rest : List KindVersion}
    (declared : kind.versions = first :: rest) :
    kind.versionNames.getLast? = some ((first :: rest).getLast (List.cons_ne_nil _ _)).name := by
  rw [versionNames, declared, List.getLast?_map, List.getLast?_eq_some_getLast]
  rfl

/-- A graph comes of versions that agree and of a hub that could be elected. -/
theorem exists_of_wire {kind : KindDefinition} {preferred : Option String} {graph : VersionGraph}
    (wires : kind.wire preferred = .ok graph) : ∃ first rest hub, kind.versions = first :: rest ∧
      checkVersions kind first [] (first :: rest) = .ok () ∧
      kind.electHub ((first :: rest).getLast (List.cons_ne_nil _ _)) preferred = .ok hub ∧
      graph = ⟨kind.group, kind.kind, hub, first.conversion, kind.versionNames⟩ := by
  cases declared : kind.versions with
  | nil =>
    simp only [wire, declared] at wires
    cases wires
  | cons first rest =>
    rw [wire_cons declared] at wires
    obtain ⟨_, checked, wires⟩ := bind_eq_ok.mp wires
    obtain ⟨hub, elected, wires⟩ := bind_eq_ok.mp wires
    exact ⟨first, rest, hub, rfl, checked, elected, (Except.ok.inj wires).symm⟩

theorem wired_of_wire {kind : KindDefinition} {preferred : Option String} {graph : VersionGraph}
    (wires : kind.wire preferred = .ok graph) : kind.Wired graph := by
  obtain ⟨first, rest, hub, declared, _, elected, rfl⟩ := exists_of_wire wires
  have inside : (first :: rest).getLast (List.cons_ne_nil _ _) ∈ kind.versions := by
    rw [declared]
    exact List.getLast_mem _
  exact ⟨rfl, rfl, rfl, electHub_mem inside elected⟩

/-- The versions have names of their own and one flag. -/
structure Coherent (versions : List KindVersion) : Prop where
  names : (versions.map KindVersion.name).Nodup
  flags : ∀ a ∈ versions, ∀ b ∈ versions, a.conversion = b.conversion

/-- A version that does not go with those before it. Its name counts before its flag. -/
inductive Offence (kind : KindDefinition) : List KindVersion → KindVersion → VersionGraphError → Prop
  | repeatedName {before version} (again : version.name ∈ before.map KindVersion.name) :
      Offence kind before version (.duplicateVersion kind.group kind.kind version.name)
  | otherFlag {first before version} (new : version.name ∉ (first :: before).map KindVersion.name)
      (other : version.conversion ≠ first.conversion) :
      Offence kind (first :: before) version
        (.conversionMismatch kind.group kind.kind first.name first.conversion version.name version.conversion)

theorem Coherent.concat {versions : List KindVersion} {version : KindVersion} (coherent : Coherent versions)
    (new : version.name ∉ versions.map KindVersion.name)
    (alike : ∀ other ∈ versions, version.conversion = other.conversion) : Coherent (versions ++ [version]) := by
  constructor
  · rw [List.map_append, List.map_singleton, List.nodup_append]
    refine ⟨coherent.names, List.pairwise_singleton .., fun name inside other last => ?_⟩
    rintro rfl
    exact new (List.mem_singleton.mp last ▸ inside)
  · intro a inside b insideToo
    rcases List.mem_append.mp inside with among | last <;> rcases List.mem_append.mp insideToo with amongToo | lastToo
    · exact coherent.flags a among b amongToo
    · obtain rfl := List.mem_singleton.mp lastToo
      exact (alike a among).symm
    · obtain rfl := List.mem_singleton.mp last
      exact alike b amongToo
    · rw [List.mem_singleton.mp last, List.mem_singleton.mp lastToo]

/-- Versions are coherent, or there is a first one that does not go with those before it, whatever versions follow. -/
theorem coherent_or_offence (kind : KindDefinition) (versions : List KindVersion) : Coherent versions ∨
    ∃ before version after error, versions = before ++ version :: after ∧ Coherent before ∧
      Offence kind before version error := by
  induction versions using List.reverseRecOn with
  | nil => exact .inl ⟨.nil, nofun⟩
  | append_singleton versions version ih =>
    obtain coherent | ⟨before, offender, after, error, rfl, coherent, offends⟩ := ih
    · by_cases again : version.name ∈ versions.map KindVersion.name
      · exact .inr ⟨versions, version, [], _, rfl, coherent, .repeatedName again⟩
      cases versions with
      | nil => exact .inl (coherent.concat again nofun)
      | cons first rest =>
        by_cases alike : version.conversion = first.conversion
        · refine .inl (coherent.concat again fun other inside => ?_)
          exact alike.trans (coherent.flags first (List.mem_cons_self ..) other inside)
        · exact .inr ⟨first :: rest, version, [], _, rfl, coherent, .otherFlag again alike⟩
    · exact .inr ⟨before, offender, after ++ [version], error, by simp, coherent, offends⟩

/-- Coherent versions are passed over, and their names are kept in mind. -/
theorem checkVersions_append (kind : KindDefinition) {first : KindVersion} {seen : List String}
    {before : List KindVersion} (distinct : (before.map KindVersion.name).Nodup) (new : ∀ version ∈ before, version.name ∉ seen)
    (alike : ∀ version ∈ before, version.conversion = first.conversion) (rest : List KindVersion) :
    kind.checkVersions first seen (before ++ rest) =
      kind.checkVersions first ((before.map KindVersion.name).reverse ++ seen) rest := by
  induction before generalizing seen with
  | nil => rfl
  | cons version before ih =>
    obtain ⟨here, others⟩ := List.nodup_cons.mp distinct
    obtain ⟨fresh, later⟩ := List.forall_mem_cons.mp new
    obtain ⟨same, alike⟩ := List.forall_mem_cons.mp alike
    have next : ∀ other ∈ before, other.name ∉ version.name :: seen := by
      intro other inside
      rw [List.mem_cons, not_or]
      exact ⟨fun named => here (named ▸ List.mem_map_of_mem inside), later other inside⟩
    rw [List.cons_append, checkVersions, if_neg (by simpa using fresh), if_neg (not_not_intro same),
      ih others next alike]
    simp

theorem checkVersions_of_coherent (kind : KindDefinition) {first : KindVersion} {before : List KindVersion}
    (coherent : Coherent (first :: before)) (rest : List KindVersion) :
    kind.checkVersions first [] (first :: before ++ rest) =
      kind.checkVersions first ((first :: before).map KindVersion.name).reverse rest := by
  have alike := fun version inside => coherent.flags version inside first (List.mem_cons_self ..)
  rw [kind.checkVersions_append coherent.names (fun _ _ => List.not_mem_nil) alike, List.append_nil]

theorem wire_of_checkVersions {kind : KindDefinition} {first : KindVersion} {rest : List KindVersion}
    {error : VersionGraphError} (declared : kind.versions = first :: rest)
    (fails : kind.checkVersions first [] (first :: rest) = .error error) (preferred : Option String) :
    kind.wire preferred = .error error := by
  rw [wire_cons declared, fails]
  rfl

theorem wire_of_offence {kind : KindDefinition} {before after : List KindVersion} {version : KindVersion}
    {error : VersionGraphError} (split : kind.versions = before ++ version :: after) (coherent : Coherent before)
    (offends : Offence kind before version error) (preferred : Option String) :
    kind.wire preferred = .error error := by
  cases before with
  | nil =>
    cases offends with
    | repeatedName again => cases again
  | cons first rest =>
    have passed := kind.checkVersions_of_coherent coherent (version :: after)
    refine wire_of_checkVersions split (passed.trans ?_) preferred
    rw [checkVersions]
    cases offends with
    | repeatedName again => rw [if_pos (List.contains_iff_mem.mpr (List.mem_reverse.mpr again))]
    | otherFlag new other => rw [if_neg (mt List.contains_iff_mem.mp (mt List.mem_reverse.mp new)), if_pos other]

theorem coherent_of_wire {kind : KindDefinition} {preferred : Option String} {graph : VersionGraph}
    (wires : kind.wire preferred = .ok graph) : Coherent kind.versions := by
  obtain coherent | ⟨before, version, after, error, split, coherent, offends⟩ := kind.coherent_or_offence kind.versions
  · exact coherent
  · cases (wire_of_offence split coherent offends preferred).symm.trans wires

/-- The versions of a kind that can be wired have names of their own and one flag. -/
theorem agree_of_wire {kind : KindDefinition} {preferred : Option String} {graph : VersionGraph}
    (wires : kind.wire preferred = .ok graph) :
    kind.versionNames.Nodup ∧ ∀ version ∈ kind.versions, version.conversion = graph.conversion := by
  have coherent := coherent_of_wire wires
  obtain ⟨first, rest, hub, declared, _, _, rfl⟩ := exists_of_wire wires
  exact ⟨coherent.names, fun version inside => coherent.flags version inside first (by simp [declared])⟩

theorem Offence.other {a b : KindDefinition} {before : List KindVersion} {version : KindVersion}
    {error : VersionGraphError} (sameGroup : a.group = b.group) (sameName : a.kind = b.kind)
    (offends : Offence a before version error) : Offence b before version error := by
  cases offends with
  | repeatedName again =>
    rw [sameGroup, sameName]
    exact .repeatedName again
  | otherFlag new other =>
    rw [sameGroup, sameName]
    exact .otherFlag new other

/-- Two definitions of one name that cannot be wired, whatever is preferred, and for the same reason. -/
structure Unwirable (a b : KindDefinition) (error : VersionGraphError) : Prop where
  kind : a.kind = b.kind
  first : ∀ preferred, a.wireLogged preferred = ⟨.error error, []⟩
  second : ∀ preferred, b.wireLogged preferred = ⟨.error error, []⟩

theorem wireLogged_of_error {kind : KindDefinition} {preferred : Option String} {error : VersionGraphError}
    (fails : kind.wire preferred = .error error) : kind.wireLogged preferred = ⟨.error error, []⟩ := by
  unfold wireLogged wireWarnings
  rw [fails]
  cases kind.preference preferred <;> rfl

/-- Without versions, or with two of one name, nothing else of a definition matters. -/
theorem exists_unwirable {a b : KindDefinition} (sameGroup : a.group = b.group) (sameName : a.kind = b.kind)
    (sameVersions : a.versions = b.versions) (flawed : a.versions = [] ∨ ¬ a.versionNames.Nodup) :
    ∃ error, Unwirable a b error := by
  obtain coherent | ⟨before, version, after, error, split, coherent, offends⟩ := a.coherent_or_offence a.versions
  · have nothing : a.versions = [] := flawed.resolve_right (not_not_intro coherent.names)
    refine ⟨.noVersions a.group a.kind, sameName, fun preferred => wireLogged_of_error ?_,
      fun preferred => wireLogged_of_error ?_⟩
    · simp only [wire, nothing]
    · simp only [wire, ← sameVersions, nothing, sameGroup, sameName]
  · exact ⟨error, sameName, fun preferred => wireLogged_of_error (wire_of_offence split coherent offends preferred),
      fun preferred => wireLogged_of_error (wire_of_offence (sameVersions.symm.trans split) coherent
        (offends.other sameGroup sameName) preferred)⟩

/-- Whatever is made of the wired versions of the one is made of those of the other. -/
def Alike (a b : KindDefinition) : Prop := a = b ∨ ∃ error, Unwirable a b error

namespace Alike

variable {a b : KindDefinition}

theorem kind_eq (alike : a.Alike b) : a.kind = b.kind := by
  obtain rfl | ⟨error, unwirable⟩ := alike
  · rfl
  · exact unwirable.kind

theorem wireLogged_eq (alike : a.Alike b) (preferred : Option String) :
    a.wireLogged preferred = b.wireLogged preferred := by
  obtain rfl | ⟨error, unwirable⟩ := alike
  · rfl
  · rw [unwirable.first, unwirable.second]

end Alike

end KindDefinition

namespace VersionGraph

variable {graph : VersionGraph} {version : String}

/-- The routes join each other version with the hub, one in each direction. -/
theorem mem_routes {route : Route} : route ∈ graph.routes ↔ ∃ version ∈ graph.versions, version ≠ graph.hub ∧
    (route = ⟨version, graph.hub, .toHub⟩ ∨ route = ⟨graph.hub, version, .fromHub⟩) := by
  simp [routes, and_assoc]

/-- A route is found by its ends as soon as no other route has them. -/
theorem route?_of_mem {route : Route} (inside : route ∈ graph.routes) (source : route.source ∈ graph.versions)
    (target : route.target ∈ graph.versions)
    (alone : ∀ other ∈ graph.routes, other.source = route.source → other.target = route.target → other = route) :
    graph.route? route.source route.target = some route := by
  have declared : (graph.contains route.source && graph.contains route.target) = true := by
    simp [contains, source, target]
  rw [route?, if_pos declared]
  cases found : graph.routes.find? fun other => other.source = route.source && other.target = route.target with
  | none => simpa using List.find?_eq_none.mp found route inside
  | some other =>
    have same := List.find?_some found
    simp only [Bool.and_eq_true, decide_eq_true_eq] at same
    rw [alone other (List.mem_of_find?_eq_some found) same.1 same.2]

theorem route?_toHub (inside : version ∈ graph.versions) (hub : graph.hub ∈ graph.versions)
    (other : version ≠ graph.hub) : graph.route? version graph.hub = some ⟨version, graph.hub, .toHub⟩ := by
  have member : ⟨version, graph.hub, .toHub⟩ ∈ graph.routes := mem_routes.mpr ⟨version, inside, other, .inl rfl⟩
  refine route?_of_mem member inside hub fun route joins source target => ?_
  obtain ⟨spoke, _, _, rfl | rfl⟩ := mem_routes.mp joins
  · exact congrArg (Route.mk · graph.hub .toHub) source
  · exact absurd source.symm other

theorem route?_fromHub (inside : version ∈ graph.versions) (hub : graph.hub ∈ graph.versions)
    (other : version ≠ graph.hub) : graph.route? graph.hub version = some ⟨graph.hub, version, .fromHub⟩ := by
  have member : ⟨graph.hub, version, .fromHub⟩ ∈ graph.routes := mem_routes.mpr ⟨version, inside, other, .inr rfl⟩
  refine route?_of_mem member hub inside fun route joins source target => ?_
  obtain ⟨spoke, _, _, rfl | rfl⟩ := mem_routes.mp joins
  · exact absurd target.symm other
  · exact congrArg (Route.mk graph.hub · .fromHub) target

theorem path?_toHub (inside : version ∈ graph.versions) (hub : graph.hub ∈ graph.versions)
    (other : version ≠ graph.hub) :
    graph.path? version graph.hub = some [⟨version, graph.hub, .toHub⟩] := by
  simp [path?, contains, inside, hub, other, route?_toHub inside hub other]

theorem path?_fromHub (inside : version ∈ graph.versions) (hub : graph.hub ∈ graph.versions)
    (other : version ≠ graph.hub) :
    graph.path? graph.hub version = some [⟨graph.hub, version, .fromHub⟩] := by
  simp [path?, contains, inside, hub, Ne.symm other, route?_fromHub inside hub other]

/-- Between two versions apart from the hub there are two hops, with the hub in the middle. -/
theorem path?_spokes {target : String} (source : version ∈ graph.versions) (inside : target ∈ graph.versions)
    (hub : graph.hub ∈ graph.versions) (apart : version ≠ target) (other : version ≠ graph.hub)
    (targetOther : target ≠ graph.hub) :
    graph.path? version target = some [⟨version, graph.hub, .toHub⟩, ⟨graph.hub, target, .fromHub⟩] := by
  simp [path?, contains, source, inside, apart, other, targetOther, route?_toHub source hub other,
    route?_fromHub inside hub targetOther]

theorem path?_self (inside : version ∈ graph.versions) : graph.path? version version = some [] := by
  simp [path?, contains, inside]

end VersionGraph

end ResourceKinds
