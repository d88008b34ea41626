import ResourceKinds.Proofs.Version.Names

namespace ResourceKinds

theorem Stability.eq_of_rank {a b : Stability} (same : a.rank = b.rank) : a = b := by
  cases a <;> cases b <;> first | rfl | cases same

namespace KubeVersion

instance : Std.TransCmp KubeVersion.compare :=
  inferInstanceAs (Std.TransCmp (compareLex (compareOn fun version => version.stability.rank)
    (compareLex (compareOn KubeVersion.major) (compareOn KubeVersion.minor))))

theorem eq_of_compare {a b : KubeVersion} (same : a.compare b = .eq) : a = b := by
  obtain ⟨major, stability, minor⟩ := a
  obtain ⟨otherMajor, otherStability, otherMinor⟩ := b
  simp only [compare, Ordering.then_eq_eq, Nat.compare_eq_eq] at same
  obtain ⟨rank, rfl, rfl⟩ := same
  rw [Stability.eq_of_rank rank]

/-- No two names stand for one version. -/
theorem parse?_injective {a b : String} {version : KubeVersion} (first : parse? a = some version)
    (second : parse? b = some version) : a = b :=
  (parse?_eq_some.mp first).2.symm.trans (parse?_eq_some.mp second).2

end KubeVersion

section Order

instance : Std.OrientedCmp comparePriority where
  eq_swap {a b} := by
    unfold comparePriority
    cases KubeVersion.parse? a <;> cases KubeVersion.parse? b <;> dsimp only
    case none.none => exact Std.OrientedCmp.eq_swap
    case some.some => exact Std.OrientedCmp.eq_swap
    all_goals rfl

instance : Std.TransCmp comparePriority where
  isLE_trans {a b c} := by
    unfold comparePriority
    cases KubeVersion.parse? a <;> cases KubeVersion.parse? b <;> cases KubeVersion.parse? c <;> dsimp only
    case none.none.none => exact Std.TransCmp.isLE_trans
    case some.some.some => exact fun first second => Std.TransCmp.isLE_trans second first
    all_goals simp

instance : Std.LawfulEqCmp comparePriority where
  compare_self {a} := by
    unfold comparePriority
    cases KubeVersion.parse? a <;> dsimp only
    case none => exact Std.ReflCmp.compare_self
    case some => exact Std.ReflCmp.compare_self
  eq_of_compare {a b} := by
    unfold comparePriority
    cases first : KubeVersion.parse? a <;> cases second : KubeVersion.parse? b <;> dsimp only
    case none.none => exact Std.LawfulEqCmp.eq_of_compare
    case some.some version other =>
      intro same
      obtain rfl := KubeVersion.eq_of_compare same
      exact KubeVersion.parse?_injective first second
    all_goals nofun

theorem comparePriority_swap (a b : String) : comparePriority a b = (comparePriority b a).swap :=
  Std.OrientedCmp.eq_swap

end Order

/-- No name of the list is preferred to this one, which is among them. -/
structure IsHighest (names : List String) (best : String) : Prop where
  inside : best ∈ names
  before : ∀ other ∈ names, (comparePriority best other).isLE = true

theorem IsHighest.unique {names : List String} {best other : String} (first : IsHighest names best)
    (second : IsHighest names other) : best = other :=
  Std.LawfulEqCmp.eq_of_compare
    (Std.OrientedCmp.isLE_antisymm (first.before other second.inside) (second.before best first.inside))

/-- The better of two names stands for both. -/
theorem IsHighest.cons {names : List String} {name next best : String}
    (highest : IsHighest ((if comparePriority name next = .gt then next else name) :: names) best) :
    IsHighest (name :: next :: names) best := by
  obtain ⟨inside, before⟩ := highest
  obtain ⟨first, later⟩ := List.forall_mem_cons.mp before
  by_cases worse : comparePriority name next = .gt
  · rw [if_pos worse] at inside first
    have second : (comparePriority next name).isLE = true := by
      rw [comparePriority_swap, worse]
      rfl
    refine ⟨List.mem_cons_of_mem _ inside, ?_⟩
    rw [List.forall_mem_cons, List.forall_mem_cons]
    exact ⟨Std.TransCmp.isLE_trans first second, first, later⟩
  · rw [if_neg worse] at inside first
    have second : (comparePriority name next).isLE = true := Ordering.isLE_iff_ne_gt.mpr worse
    refine ⟨?_, ?_⟩
    · rcases List.mem_cons.mp inside with rfl | among
      · exact List.mem_cons_self ..
      · exact List.mem_cons_of_mem _ (List.mem_cons_of_mem _ among)
    · rw [List.forall_mem_cons, List.forall_mem_cons]
      exact ⟨first, Std.TransCmp.isLE_trans first second, later⟩

theorem isHighest_foldl (rest : List String) (name : String) : IsHighest (name :: rest)
    (rest.foldl (fun best other => if comparePriority best other = .gt then other else best) name) := by
  induction rest generalizing name with
  | nil => exact ⟨List.mem_cons_self .., by simp [Std.ReflCmp.compare_self]⟩
  | cons next rest ih => exact (ih _).cons

theorem highestPriority?_eq_some {names : List String} {best : String} :
    highestPriority? names = some best ↔ IsHighest names best := by
  cases names with
  | nil => exact ⟨nofun, fun highest => nomatch highest.inside⟩
  | cons name rest =>
    have found := isHighest_foldl rest name
    rw [highestPriority?, Option.some.injEq]
    exact ⟨fun same => same ▸ found, fun highest => found.unique highest⟩

theorem IsHighest.perm {names others : List String} {best : String} (highest : IsHighest names best)
    (permuted : names.Perm others) : IsHighest others best :=
  ⟨permuted.mem_iff.mp highest.inside, fun other among => highest.before other (permuted.mem_iff.mpr among)⟩

theorem highestPriority?_perm {names others : List String} (permuted : names.Perm others) :
    highestPriority? names = highestPriority? others := by
  ext best
  rw [highestPriority?_eq_some, highestPriority?_eq_some]
  exact ⟨fun highest => highest.perm permuted, fun highest => highest.perm permuted.symm⟩

/-- A name is the most preferred one unless another name comes before it. -/
theorem highestPriority?_ne {names : List String} {name : String} (inside : name ∈ names) :
    highestPriority? names ≠ some name ↔ ∃ other ∈ names, comparePriority other name = .lt := by
  have before (other : String) : comparePriority other name = .lt ↔ ¬ (comparePriority name other).isLE = true := by
    rw [comparePriority_swap]
    cases comparePriority name other <;> decide
  simp only [Ne, highestPriority?_eq_some, before]
  constructor
  · intro beaten
    by_contra none
    push Not at none
    exact beaten ⟨inside, none⟩
  · rintro ⟨other, among, better⟩ highest
    exact better (highest.before other among)

end ResourceKinds
