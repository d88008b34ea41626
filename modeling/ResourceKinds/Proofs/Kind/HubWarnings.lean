import ResourceKinds.Proofs.Kind.WiringOutcomes
import ResourceKinds.Proofs.Version.Priority

namespace ResourceKinds

namespace KindDefinition

variable {kind : KindDefinition} {preferred : Option String} {graph : VersionGraph}

theorem getLast?_of_wire (free : kind.preference preferred = none) (wires : kind.wire preferred = .ok graph) :
    kind.versionNames.getLast? = some graph.hub := by
  obtain ⟨first, rest, hub, declared, _, elected, rfl⟩ := exists_of_wire wires
  rw [electHub, free] at elected
  obtain rfl := Except.ok.inj elected
  exact getLast?_versionNames declared

theorem wireWarnings_of_error {error : VersionGraphError} (fails : kind.wire preferred = .error error) :
    kind.wireWarnings preferred = [] :=
  congrArg Logged.warnings (wireLogged_of_error fails)

theorem wireWarnings_of_wire (free : kind.preference preferred = none) (wires : kind.wire preferred = .ok graph) :
    kind.wireWarnings preferred =
      if ∃ version ∈ kind.versionNames, comparePriority version graph.hub = .lt then
        [.hubNotHighest kind.group kind.kind graph.hub (highestPriority? kind.versionNames)]
      else [] := by
  have inside : graph.hub ∈ kind.versionNames := (wired_of_wire wires).hub
  simp only [wireWarnings, free, wires, ← highestPriority?_ne inside, ite_not]

/-- Names are totally ordered by preference, so that the most preferred of several is the same in whatever order they
are given. A kind without a preference is warned about its hub, which is the last of its versions, just if it can be
wired and one of its versions is preferred to the last one. -/
theorem warned_by_priority :
    (∀ a b, comparePriority a b = .eq ↔ a = b) ∧
    (∀ a b, comparePriority b a = (comparePriority a b).swap) ∧
    (∀ a b c, comparePriority a b = .lt → comparePriority b c = .lt → comparePriority a c = .lt) ∧
    (∀ names others, names.Perm others → highestPriority? names = highestPriority? others) ∧
    ∀ (kind : KindDefinition) preferred, kind.preference preferred = none →
      (∀ graph, kind.wire preferred = .ok graph → kind.versionNames.getLast? = some graph.hub ∧
        kind.wireWarnings preferred =
          if ∃ version ∈ kind.versionNames, comparePriority version graph.hub = .lt then
            [.hubNotHighest kind.group kind.kind graph.hub (highestPriority? kind.versionNames)]
          else []) ∧
      ∀ error, kind.wire preferred = .error error → kind.wireWarnings preferred = [] := by
  refine ⟨fun _ _ => Std.LawfulEqCmp.compare_eq_iff_eq, fun a b => comparePriority_swap b a,
    fun _ _ _ => Std.TransCmp.lt_trans, fun _ _ => highestPriority?_perm, fun kind preferred free => ⟨?_, ?_⟩⟩
  · exact fun graph wires => ⟨getLast?_of_wire free wires, wireWarnings_of_wire free wires⟩
  · exact fun error fails => wireWarnings_of_error fails

def benchVersion (name : String) (conversion : Bool) : KindVersion :=
  ⟨name, .empty, [], [], ⟨true, true⟩, .none, conversion, true⟩

/-- A kind with a `v2` before its `v1`, and the conversion flag of the latter. -/
def benchKind (conversion : Bool) : KindDefinition where
  group := "benches.dev"
  kind := "Bench"
  scope := .namespaced
  machineName := ""
  plural := ""
  versions := [benchVersion "v2" false, benchVersion "v1" conversion]
  preferredVersion := none

theorem bench_overtaken (conversion : Bool) :
    ∃ version ∈ (benchKind conversion).versionNames, comparePriority version "v1" = .lt :=
  ⟨"v2", List.mem_cons_self .., by decide⟩

theorem warned_by_priority_benches : (benchKind false).preference none = none ∧
    (benchKind false).wire none = .ok ⟨"benches.dev", "Bench", "v1", false, ["v2", "v1"]⟩ ∧
    (benchKind false).wireWarnings none = [.hubNotHighest "benches.dev" "Bench" "v1" (some "v2")] ∧
    comparePriority "v1" "v10beta2" = .lt ∧ comparePriority "v10beta2" "edge" = .lt ∧
    comparePriority "v1" "edge" = .lt ∧
    ["v2", "v1"].Perm ["v1", "v2"] ∧ highestPriority? ["v2", "v1"] = highestPriority? ["v1", "v2"] := by
  obtain ⟨_, _, trans, permuted, warned⟩ := warned_by_priority
  have wires : (benchKind false).wire none = .ok ⟨"benches.dev", "Bench", "v1", false, ["v2", "v1"]⟩ := by decide
  have warning := ((warned (benchKind false) none rfl).1 _ wires).2
  have stable : comparePriority "v1" "v10beta2" = .lt := by decide
  have beta : comparePriority "v10beta2" "edge" = .lt := by decide
  have swapped : ["v2", "v1"].Perm ["v1", "v2"] := .swap ..
  exact ⟨rfl, wires, warning.trans (if_pos (bench_overtaken false)), stable, beta, trans _ _ _ stable beta, swapped,
    permuted _ _ swapped⟩

/-- Without a hub there is nothing to be warned about, whichever version is preferred to the last one. -/
theorem mixed_benches_unwarned : (benchKind true).preference none = none ∧
    ¬ ((benchKind true).wireWarnings none ≠ [] ↔ ∃ last, (benchKind true).versionNames.getLast? = some last ∧
      ∃ version ∈ (benchKind true).versionNames, comparePriority version last = .lt) := by
  have silent : (benchKind true).wireWarnings none = [] := by decide
  exact ⟨rfl, fun same => same.mpr ⟨"v1", rfl, bench_overtaken true⟩ silent⟩

end KindDefinition

end ResourceKinds
