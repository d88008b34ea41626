import ResourceKinds.Proofs.ManifestViews

namespace ResourceKinds

/-- The synthesis of one version of a kind on behalf of an app. -/
structure Attempt where
  app : String
  kind : String
  version : String
  tree : SchemaTree

/-- The schemas that are kept, by app name and by what they are kept under. -/
abbrev KeptSchemas := String × SchemaKey → Option Synthesized

namespace Attempt

def outcome (attempt : Attempt) : Except SchemaError Synthesized :=
  attempt.tree.synthesize attempt.kind attempt.version

def succeeds (attempt : Attempt) : Bool := attempt.outcome.isOk

def warnings (attempt : Attempt) : List Warning := attempt.tree.synthesisWarnings attempt.kind attempt.version

def key (attempt : Attempt) : String × SchemaKey := (attempt.app, ⟨attempt.version, attempt.kind⟩)

/-- What is kept after the attempt when nothing was kept there before. -/
def keep (attempt : Attempt) (kept : KeptSchemas) : KeptSchemas :=
  fun key => if key = attempt.key then attempt.outcome.toOption else kept key

theorem succeeds_iff {attempt : Attempt} :
    attempt.succeeds = true ↔ ∃ synthesized, attempt.outcome = .ok synthesized := by
  unfold succeeds
  cases attempt.outcome <;> simp [Except.isOk, Except.toBool]

theorem keep_eq_some {attempt : Attempt} {kept : KeptSchemas} (missing : kept attempt.key = none)
    {key : String × SchemaKey} {synthesized : Synthesized} : attempt.keep kept key = some synthesized ↔
      kept key = some synthesized ∨ attempt.key = key ∧ attempt.outcome = .ok synthesized := by
  unfold keep
  by_cases here : key = attempt.key
  · subst here
    cases attempt.outcome <;> simp [missing, Except.toOption]
  · simp [here, Ne.symm here]

end Attempt

/-- Attempts made one after the other, each where nothing is kept by then. -/
inductive Attempts : KeptSchemas → List Attempt → KeptSchemas → Prop
  | nil {kept} : Attempts kept [] kept
  | cons {kept attempt later final} (missing : kept attempt.key = none)
      (rest : Attempts (attempt.keep kept) later final) : Attempts kept (attempt :: later) final

namespace Attempts

variable {kept middle final : KeptSchemas} {first later attempts : List Attempt}

theorem append (start : Attempts kept first middle) (rest : Attempts middle later final) :
    Attempts kept (first ++ later) final := by
  induction start with
  | nil => exact rest
  | cons missing _ ih => exact .cons missing (ih rest)

/-- What is kept in the end was kept before or comes of an attempt that succeeded. -/
theorem final_eq_some (made : Attempts kept attempts final) {key : String × SchemaKey} {synthesized : Synthesized} :
    final key = some synthesized ↔
      kept key = some synthesized ∨ ∃ attempt ∈ attempts, attempt.key = key ∧ attempt.outcome = .ok synthesized := by
  induction made with
  | nil => simp
  | cons missing _ ih => simp only [ih, Attempt.keep_eq_some missing, List.mem_cons, exists_eq_or_imp, or_assoc]

theorem stays (made : Attempts kept attempts final) {key : String × SchemaKey} {synthesized : Synthesized}
    (found : kept key = some synthesized) : final key = some synthesized :=
  made.final_eq_some.mpr (.inl found)

theorem missing_of_mem (made : Attempts kept attempts final) {attempt : Attempt} (inside : attempt ∈ attempts) :
    kept attempt.key = none := by
  induction made with
  | nil => cases inside
  | @cons kept first later final missing _ ih =>
    rcases List.mem_cons.mp inside with rfl | inside
    · exact missing
    · have none := ih inside
      unfold Attempt.keep at none
      split at none
      · rename_i same
        rwa [same]
      · exact none

/-- No two attempts for the same version of a kind succeed: what the first has left is kept while later ones are made. -/
theorem nodup_successes (made : Attempts kept attempts final) :
    ((attempts.filter Attempt.succeeds).map Attempt.key).Nodup := by
  induction made with
  | nil => exact .nil
  | @cons kept first later final missing rest ih =>
    cases succeeds : first.succeeds with
    | false => rwa [List.filter_cons_of_neg (by simp [succeeds])]
    | true =>
      rw [List.filter_cons_of_pos succeeds, List.map_cons, List.nodup_cons]
      refine ⟨fun repeated => ?_, ih⟩
      obtain ⟨second, inside, same⟩ := List.mem_map.mp repeated
      obtain ⟨inside, _⟩ := List.mem_filter.mp inside
      obtain ⟨synthesized, outcome⟩ := Attempt.succeeds_iff.mp succeeds
      have keeps : first.keep kept second.key = some synthesized :=
        (Attempt.keep_eq_some missing).mpr (.inr ⟨same.symm, outcome⟩)
      rw [rest.missing_of_mem inside] at keeps
      cases keeps

end Attempts

namespace ViewBuild

/-- The attempt that a step makes for a declared version. -/
def attempt? (build : ViewBuild) (app : String) (declared : String × KindVersion) : Option Attempt :=
  if build.known.contains ⟨declared.2.name, declared.1⟩ then none
  else some ⟨app, declared.1, declared.2.name, declared.2.schema⟩

def attempts (build : ViewBuild) (app : String) : List (String × KindVersion) → List Attempt
  | [] => []
  | declared :: rest => (build.attempt? app declared).toList ++ (build.step declared).value.attempts app rest

/-- The schemas kept when those known to the build are the app's. -/
def kept (build : ViewBuild) (app : String) (others : KeptSchemas) : KeptSchemas :=
  fun key => if key.1 = app then build.known.lookup key.2 else others key

/-- Every schema among the outcomes is known. -/
def Sound (build : ViewBuild) : Prop :=
  ∀ key synthesized, build.outcomes.lookup key = some (.ok synthesized) → build.known.lookup key = some synthesized

theorem step_attempts (build : ViewBuild) (app : String) (others : KeptSchemas) (declared : String × KindVersion) :
    let made := (build.attempt? app declared).toList
    let after := (build.step declared).value
    Attempts (build.kept app others) made (after.kept app others) ∧ after.builds = build.builds + made.length ∧
      (build.step declared).warnings = made.flatMap Attempt.warnings := by
  obtain ⟨kind, version⟩ := declared
  cases known : build.known.lookup ⟨version.name, kind⟩ with
  | some synthesized =>
    simp only [attempt?, Table.contains, step, known, Option.isSome_some, if_true]
    exact ⟨.nil, rfl, rfl⟩
  | none =>
    simp only [attempt?, Table.contains, step, known, Option.isSome_none, Bool.false_eq_true, if_false]
    refine ⟨.cons (by simp [kept, Attempt.key, known]) ?_, rfl, by simp [Attempt.warnings]⟩
    have keeps : (⟨app, kind, version.name, version.schema⟩ : Attempt).keep (build.kept app others) =
        (build.step (kind, version)).value.kept app others := by
      funext place
      obtain ⟨name, key⟩ := place
      by_cases here : name = app
      · subst here
        simp only [Attempt.keep, Attempt.key, Attempt.outcome, kept, step, known, Prod.mk.injEq, true_and, if_true]
        cases version.schema.synthesize kind version.name with
        | ok synthesized => rw [Table.lookup_insert]; rfl
        | error error =>
          split
          · rename_i same
            rw [same, known]
            rfl
          · rfl
      · simp [Attempt.keep, Attempt.key, kept, here]
    simp only [step, known] at keeps
    rw [keeps]
    exact .nil

theorem step_sound {build : ViewBuild} (sound : build.Sound) (declared : String × KindVersion) :
    (build.step declared).value.Sound := by
  obtain ⟨kind, version⟩ := declared
  intro key synthesized found
  cases known : build.known.lookup ⟨version.name, kind⟩ with
  | some own =>
    simp only [step, known, Table.lookup_insert] at found ⊢
    split at found
    · rename_i same
      obtain rfl := Except.ok.inj (Option.some.inj found)
      rw [same, known]
    · exact sound key synthesized found
  | none =>
    simp only [step, known, Table.lookup_insert] at found ⊢
    cases built : version.schema.synthesize kind version.name with
    | ok own =>
      simp only [built, Table.lookup_insert] at found ⊢
      split at found
      · rename_i same
        obtain rfl := Except.ok.inj (Option.some.inj found)
        rw [if_pos same]
      · rename_i different
        rw [if_neg different]
        exact sound key synthesized found
    | error error =>
      simp only [built] at found ⊢
      split at found
      · cases found
      · exact sound key synthesized found

/-- A build makes its attempts in the order of the declared versions. -/
theorem foldlM_attempts (build : ViewBuild) (app : String) (others : KeptSchemas)
    (declared : List (String × KindVersion)) :
    let made := build.attempts app declared
    let after := (declared.foldlM step build).value
    Attempts (build.kept app others) made (after.kept app others) ∧ after.builds = build.builds + made.length ∧
      (declared.foldlM step build).warnings = made.flatMap Attempt.warnings := by
  induction declared generalizing build with
  | nil => exact ⟨.nil, rfl, rfl⟩
  | cons first rest ih =>
    obtain ⟨start, counted, warned⟩ := build.step_attempts app others first
    obtain ⟨later, countedLater, warnedLater⟩ := ih (build.step first).value
    simp only [List.foldlM_cons, Logged.bind_value, Logged.bind_warnings, attempts, List.flatMap_append,
      List.length_append]
    refine ⟨start.append later, ?_, by rw [warned, warnedLater]⟩
    rw [countedLater, counted, Nat.add_assoc]

theorem foldlM_sound {build : ViewBuild} (sound : build.Sound) (declared : List (String × KindVersion)) :
    (declared.foldlM step build).value.Sound := by
  induction declared generalizing build with
  | nil => exact sound
  | cons first rest ih =>
    rw [List.foldlM_cons, Logged.bind_value]
    exact ih (step_sound sound first)

end ViewBuild

end ResourceKinds
