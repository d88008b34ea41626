import ResourceKinds.Proofs.Kind.Wiring

namespace ResourceKinds

namespace KindDefinition

/-- Why a kind cannot be wired. -/
inductive Refused (kind : KindDefinition) (preferred : Option String) : VersionGraphError → Prop
  | noVersions (nothing : kind.versions = []) : Refused kind preferred (.noVersions kind.group kind.kind)
  | offence {before version after error} (split : kind.versions = before ++ version :: after)
      (coherent : Coherent before) (offends : Offence kind before version error) : Refused kind preferred error
  | preference {name} (nonempty : kind.versions ≠ []) (coherent : Coherent kind.versions)
      (prefers : kind.preference preferred = some name) (undeclared : name ∉ kind.versionNames) :
      Refused kind preferred (.preferredVersionNotFound kind.group kind.kind name)

variable {kind : KindDefinition}

/-- Coherent versions are wired as soon as the hub can be elected. -/
theorem wire_of_coherent {first : KindVersion} {rest : List KindVersion} (declared : kind.versions = first :: rest)
    (coherent : Coherent kind.versions) (preferred : Option String) : kind.wire preferred =
      (kind.electHub ((first :: rest).getLast (List.cons_ne_nil _ _)) preferred).map fun hub =>
        ⟨kind.group, kind.kind, hub, first.conversion, kind.versionNames⟩ := by
  rw [declared] at coherent
  have passed := kind.checkVersions_of_coherent coherent []
  rw [List.append_nil] at passed
  rw [wire_cons declared, passed, checkVersions]
  cases kind.electHub ((first :: rest).getLast (List.cons_ne_nil _ _)) preferred <;> rfl

/-- What a kind whose versions are coherent and hold the preferred one is wired to. -/
theorem exists_wire {preferred : Option String} (nonempty : kind.versions ≠ []) (coherent : Coherent kind.versions)
    (declared : ∀ name, kind.preference preferred = some name → name ∈ kind.versionNames) :
    ∃ graph, kind.wire preferred = .ok graph ∧
      (kind.preference preferred).or kind.versionNames.getLast? = some graph.hub ∧
      graph.priority = kind.versionNames.reverse ∧ ∀ version ∈ kind.versions, graph.conversion = version.conversion := by
  obtain ⟨first, rest, versions⟩ := List.exists_cons_of_ne_nil nonempty
  have wires := wire_of_coherent versions coherent preferred
  rw [electHub_of_declared _ declared] at wires
  refine ⟨_, wires, ?_, rfl, coherent.flags first (by simp [versions])⟩
  rw [getLast?_versionNames versions]
  cases kind.preference preferred <;> rfl

theorem Refused.wire_eq {preferred : Option String} {error : VersionGraphError}
    (refused : kind.Refused preferred error) : kind.wire preferred = .error error := by
  cases refused with
  | noVersions nothing => simp only [wire, nothing]
  | offence split coherent offends => exact wire_of_offence split coherent offends preferred
  | preference nonempty coherent prefers undeclared =>
    obtain ⟨first, rest, declared⟩ := List.exists_cons_of_ne_nil nonempty
    rw [wire_of_coherent declared coherent, electHub_of_undeclared prefers undeclared]
    rfl

/-- A kind that is not refused has coherent versions, among them the preferred one. -/
theorem coherent_or_refused (kind : KindDefinition) (preferred : Option String) :
    (kind.versions ≠ [] ∧ Coherent kind.versions ∧
      ∀ name, kind.preference preferred = some name → name ∈ kind.versionNames) ∨
    ∃ error, kind.Refused preferred error := by
  by_cases nothing : kind.versions = []
  · exact .inr ⟨_, .noVersions nothing⟩
  obtain coherent | ⟨before, version, after, error, split, coherent, offends⟩ := kind.coherent_or_offence kind.versions
  · by_cases declared : ∀ name, kind.preference preferred = some name → name ∈ kind.versionNames
    · exact .inl ⟨nothing, coherent, declared⟩
    · push Not at declared
      obtain ⟨name, prefers, undeclared⟩ := declared
      exact .inr ⟨_, .preference nothing coherent prefers undeclared⟩
  · exact .inr ⟨error, .offence split coherent offends⟩

/-- A kind is wired just if it has versions, they are coherent and the preferred one, if any, is among them. The hub is
then the preferred version or else the last one, and later versions come first. Otherwise the first version that does
not go with those before it gives the error, and only then the preference. -/
theorem wire_outcome (kind : KindDefinition) (preferred : Option String) :
    ((∃ graph, kind.wire preferred = .ok graph) ↔ kind.versions ≠ [] ∧ Coherent kind.versions ∧
        ∀ name, kind.preference preferred = some name → name ∈ kind.versionNames) ∧
      (∀ graph, kind.wire preferred = .ok graph →
        (kind.preference preferred).or kind.versionNames.getLast? = some graph.hub ∧
          graph.priority = kind.versionNames.reverse ∧ ∀ version ∈ kind.versions, graph.conversion = version.conversion) ∧
      ∀ error, kind.wire preferred = .error error ↔ kind.Refused preferred error := by
  obtain ⟨nonempty, coherent, declared⟩ | ⟨error, refused⟩ := kind.coherent_or_refused preferred
  · obtain ⟨graph, wires, described⟩ := exists_wire nonempty coherent declared
    refine ⟨⟨fun _ => ⟨nonempty, coherent, declared⟩, fun _ => ⟨graph, wires⟩⟩, fun other built => ?_, fun error => ?_⟩
    · obtain rfl := Except.ok.inj (wires.symm.trans built)
      exact described
    · refine ⟨fun fails => ?_, fun refused => refused.wire_eq⟩
      cases wires.symm.trans fails
  · have fails := refused.wire_eq
    refine ⟨⟨?_, ?_⟩, fun graph built => ?_, fun other => ⟨fun same => ?_, fun refused => refused.wire_eq⟩⟩
    · rintro ⟨graph, built⟩
      cases fails.symm.trans built
    · rintro ⟨nonempty, coherent, declared⟩
      obtain ⟨graph, wires, _⟩ := exists_wire nonempty coherent declared
      exact ⟨graph, wires⟩
    · cases fails.symm.trans built
    · obtain rfl := Except.error.inj (fails.symm.trans same)
      exact refused

end KindDefinition

end ResourceKinds
