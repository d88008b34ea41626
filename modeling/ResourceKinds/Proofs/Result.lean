import Mathlib.Data.List.Forall2
import Mathlib.Data.List.Nodup

namespace ResourceKinds

variable {ε ε' α β : Type}

/-- A sequence ends well exactly when both of its parts do. -/
theorem bind_eq_ok {first : Except ε α} {next : α → Except ε β} {result : β} :
    first >>= next = .ok result ↔ ∃ value, first = .ok value ∧ next value = .ok result := by
  cases first <;> simp [bind, Except.bind]

/-- A sequence fails exactly when its first part fails, or the part after that. -/
theorem bind_eq_error {first : Except ε α} {next : α → Except ε β} {error : ε} :
    first >>= next = .error error ↔ first = .error error ∨ ∃ value, first = .ok value ∧ next value = .error error := by
  cases first <;> simp [bind, Except.bind]

theorem map_eq_ok {first : Except ε α} {change : α → β} {result : β} :
    first.map change = .ok result ↔ ∃ value, first = .ok value ∧ change value = result := by
  cases first <;> simp [Except.map]

theorem mapError_eq_ok {computation : Except ε α} {rename : ε → ε'} {result : α} :
    computation.mapError rename = .ok result ↔ computation = .ok result := by
  cases computation with
  | error error => exact ⟨nofun, nofun⟩
  | ok value => exact ⟨fun same => congrArg _ (Except.ok.inj same), fun same => congrArg _ (Except.ok.inj same)⟩

theorem exists_of_forall₂ {relation : α → β → Prop} {items : List α} {others : List β}
    (related : List.Forall₂ relation items others) :
    (∀ other ∈ others, ∃ item ∈ items, relation item other) ∧ ∀ item ∈ items, ∃ other ∈ others, relation item other := by
  induction related with
  | nil => exact ⟨nofun, nofun⟩
  | cons first _ ih =>
    simp only [List.mem_cons, forall_eq_or_imp, exists_eq_or_imp]
    exact ⟨⟨.inl first, fun other inside => .inr (ih.1 other inside)⟩,
      ⟨.inl first, fun item inside => .inr (ih.2 item inside)⟩⟩

theorem forall₂_imp_of_mem {relation other : α → β → Prop} {items : List α} {others : List β}
    (related : List.Forall₂ relation items others)
    (weakens : ∀ item ∈ items, ∀ result, relation item result → other item result) :
    List.Forall₂ other items others := by
  induction related with
  | nil => exact .nil
  | cons first _ ih =>
    obtain ⟨here, later⟩ := List.forall_mem_cons.mp weakens
    exact .cons (here _ first) (ih later)

theorem forall₂_congr_of_mem {relation other : α → β → Prop} {items : List α} {others : List β}
    (same : ∀ item ∈ items, ∀ result, relation item result ↔ other item result) :
    List.Forall₂ relation items others ↔ List.Forall₂ other items others := by
  constructor
  · intro related
    exact forall₂_imp_of_mem related fun item inside result => (same item inside result).mp
  · intro related
    exact forall₂_imp_of_mem related fun item inside result => (same item inside result).mpr

/-- A loop ends well when each item does. -/
theorem mapM_eq_ok {work : α → Except ε β} {items : List α} {results : List β} : items.mapM work = .ok results ↔
    List.Forall₂ (fun item result => work item = .ok result) items results := by
  induction items generalizing results with
  | nil =>
    rw [List.mapM_nil, List.forall₂_nil_left_iff]
    exact ⟨fun same => (Except.ok.inj same).symm, fun same => congrArg Except.ok same.symm⟩
  | cons item rest ih =>
    rw [List.mapM_cons, List.forall₂_cons_left_iff, bind_eq_ok]
    constructor
    · rintro ⟨first, here, later⟩
      obtain ⟨others, there, made⟩ := bind_eq_ok.mp later
      exact ⟨first, others, here, ih.mp there, (Except.ok.inj made).symm⟩
    · rintro ⟨first, others, here, there, rfl⟩
      exact ⟨first, here, bind_eq_ok.mpr ⟨others, ih.mpr there, rfl⟩⟩

theorem exists_forall₂_iff {relation : α → β → Prop} {items : List α} :
    (∃ results, List.Forall₂ relation items results) ↔ ∀ item ∈ items, ∃ result, relation item result := by
  constructor
  · rintro ⟨results, related⟩ item inside
    obtain ⟨result, _, here⟩ := (exists_of_forall₂ related).2 item inside
    exact ⟨result, here⟩
  · intro each
    induction items with
    | nil => exact ⟨[], .nil⟩
    | cons item rest ih =>
      obtain ⟨⟨result, here⟩, later⟩ := List.forall_mem_cons.mp each
      obtain ⟨results, related⟩ := ih later
      exact ⟨result :: results, .cons here related⟩

theorem exists_of_mapM_error {work : α → Except ε β} {items : List α} {error : ε}
    (failed : items.mapM work = .error error) : ∃ item ∈ items, work item = .error error := by
  induction items with
  | nil => cases failed
  | cons item rest ih =>
    rw [List.mapM_cons] at failed
    cases first : work item with
    | error cause =>
      rw [first] at failed
      obtain rfl : cause = error := Except.error.inj failed
      exact ⟨item, List.mem_cons_self .., first⟩
    | ok result =>
      cases later : rest.mapM work with
      | error cause =>
        rw [first, later] at failed
        obtain rfl : cause = error := Except.error.inj failed
        obtain ⟨other, inside, here⟩ := ih later
        exact ⟨other, List.mem_cons_of_mem _ inside, here⟩
      | ok results =>
        rw [first, later] at failed
        cases failed

/-- Where each item succeeds because it is good, or fails for a reason of its own, a loop succeeds because all are. -/
theorem mapM_outcome {work : α → Except ε β} {items : List α} {good : α → Prop}
    {relation : α → β → Prop} {reason : α → ε → Prop}
    (each : ∀ item ∈ items, (good item ∧ ∃ result, work item = .ok result ∧ relation item result) ∨
      ¬ good item ∧ ∃ error, work item = .error error ∧ reason item error) :
    ((∃ results, items.mapM work = .ok results) ↔ ∀ item ∈ items, good item) ∧
    (∀ results, items.mapM work = .ok results → List.Forall₂ relation items results) ∧
    ∀ error, items.mapM work = .error error → ∃ item ∈ items, reason item error := by
  have succeeds (item : α) (inside : item ∈ items) (result : β) (done : work item = .ok result) :
      good item ∧ relation item result := by
    obtain ⟨fine, other, doneToo, related⟩ | ⟨_, error, failed, _⟩ := each item inside
    · obtain rfl := Except.ok.inj (done.symm.trans doneToo)
      exact ⟨fine, related⟩
    · rw [done] at failed
      cases failed
  refine ⟨⟨?_, fun fine => ?_⟩, fun results done => ?_, fun error failed => ?_⟩
  · rintro ⟨results, done⟩ item inside
    obtain ⟨result, _, here⟩ := (exists_of_forall₂ (mapM_eq_ok.mp done)).2 item inside
    exact (succeeds item inside result here).1
  · simp only [mapM_eq_ok, exists_forall₂_iff]
    intro item inside
    obtain ⟨_, result, done, _⟩ | ⟨flawed, _⟩ := each item inside
    · exact ⟨result, done⟩
    · exact absurd (fine item inside) flawed
  · exact forall₂_imp_of_mem (mapM_eq_ok.mp done) fun item inside result here => (succeeds item inside result here).2
  · obtain ⟨item, inside, here⟩ := exists_of_mapM_error failed
    obtain ⟨_, result, done, _⟩ | ⟨_, cause, failedToo, because⟩ := each item inside
    · rw [here] at done
      cases done
    · obtain rfl := Except.error.inj (here.symm.trans failedToo)
      exact ⟨item, inside, because⟩

/-- Results are left out with their items. -/
theorem forall₂_filter_zip {relation other : α → β → Prop} {keeps : α → Bool} {items : List α}
    {results : List β} (related : List.Forall₂ relation items results)
    (stays : ∀ item ∈ items, keeps item = true → ∀ result, relation item result → other item result) :
    List.Forall₂ other (items.filter keeps) (((items.zip results).filter (keeps ·.1)).map Prod.snd) := by
  induction related with
  | nil => exact .nil
  | @cons item result items results first _ ih =>
    obtain ⟨here, later⟩ := List.forall_mem_cons.mp stays
    rw [List.zip_cons_cons, List.filter_cons, List.filter_cons]
    by_cases kept : keeps item = true
    · rw [if_pos kept, if_pos kept]
      exact .cons (here kept result first) (ih later)
    · rw [if_neg kept, if_neg kept]
      exact ih later

theorem map_eq_of_forall₂ {γ : Type} {f : α → γ} {g : β → γ} {items : List α} {others : List β}
    (same : List.Forall₂ (fun a b => f a = g b) items others) : items.map f = others.map g := by
  rw [← List.forall₂_eq_eq_eq]
  exact List.forall₂_map_left_iff.mpr (List.forall₂_map_right_iff.mpr same)

theorem mapM_eq_of_forall₂ {m : Type → Type} [Monad m] [LawfulMonad m] {work other : α → m β}
    {items others : List α} (same : List.Forall₂ (fun a b => work a = other b) items others) :
    items.mapM work = others.mapM other := by
  induction same with
  | nil => simp
  | cons here _ ih => rw [List.mapM_cons, List.mapM_cons, here, ih]

section Occurrences

variable [BEq α] [LawfulBEq α]

theorem nodup_eraseDups (items : List α) : items.eraseDups.Nodup := by
  induction h : items.length using Nat.strongRecOn generalizing items with
  | ind size ih =>
    cases items with
    | nil => exact List.nodup_nil
    | cons item rest =>
      have shorter : (rest.filter fun other => !other == item).length < size := by
        have le := List.length_filter_le (fun other => !other == item) rest
        simp only [List.length_cons] at h
        omega
      rw [List.eraseDups_cons, List.nodup_cons, List.mem_eraseDups]
      exact ⟨by simp, ih _ shorter _ rfl⟩

theorem eraseDups_concat (items : List α) (item : α) :
    (items ++ [item]).eraseDups = items.eraseDups ++ if item ∈ items then [] else [item] := by
  rw [List.eraseDups_append]
  congr 1
  by_cases known : item ∈ items <;> simp [List.removeAll, known, List.eraseDups_cons]

end Occurrences

end ResourceKinds
