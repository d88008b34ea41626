import Mathlib.Order.Defs.Unbundled
import ResourceKinds.Table

namespace ResourceKinds.Table

variable {κ : Type w} {α : Type u} {β : Type v}

theorem keys_map (table : Table κ α) (f : α → β) : keys (table.map fun entry => (entry.1, f entry.2)) = table.keys := by
  rw [keys, keys, List.map_map]
  rfl

variable [DecidableEq κ]

theorem lookup_map (table : Table κ α) (f : α → β) (key : κ) :
    lookup (table.map fun entry => (entry.1, f entry.2)) key = (table.lookup key).map f := by
  induction table with
  | nil => rfl
  | cons head rest ih =>
    obtain ⟨first, value⟩ := head
    by_cases same : first = key <;> simp [lookup, same, ih]

theorem lookup_eq_none {table : Table κ α} {key : κ} : table.lookup key = none ↔ key ∉ table.keys := by
  induction table with
  | nil => simp [lookup, keys]
  | cons head rest ih =>
    obtain ⟨first, value⟩ := head
    by_cases same : first = key
    · simp [lookup, keys, same]
    · simpa [lookup, keys, same, Ne.symm same] using ih

theorem mem_of_lookup {table : Table κ α} {key : κ} {value : α} (found : table.lookup key = some value) :
    (key, value) ∈ table := by
  induction table with
  | nil => simp [lookup] at found
  | cons head rest ih =>
    obtain ⟨first, old⟩ := head
    by_cases same : first = key
    · subst same
      obtain rfl : old = value := by simpa [lookup] using found
      exact List.mem_cons_self ..
    · exact List.mem_cons_of_mem _ (ih (by simpa [lookup, same] using found))

theorem lookup_insert [LT κ] [DecidableLT κ] (table : Table κ α) (key other : κ) (value : α) :
    (table.insert key value).lookup other = if other = key then some value else table.lookup other := by
  by_cases same : other = key
  · simp [same, lookup_insert_self]
  · simp [same, lookup_insert_of_ne table value same]

theorem lookup_erase_of_ne {table : Table κ α} {key other : κ} (different : other ≠ key) :
    (table.erase key).lookup other = table.lookup other := by
  induction table with
  | nil => simp [erase]
  | cons head rest ih =>
    obtain ⟨first, value⟩ := head
    simp only [erase, ne_eq, decide_not] at ih ⊢
    by_cases same : first = key
    · subst same
      simp [lookup, different.symm, ih]
    · by_cases here : first = other <;> simp [lookup, same, here, different, ih]

theorem erase_eq_self {table : Table κ α} {key : κ} (absent : table.lookup key = none) : table.erase key = table := by
  rw [erase, List.filter_eq_self]
  intro entry inside
  have other : entry.1 ≠ key := fun same => lookup_eq_none.mp absent (same ▸ List.mem_map_of_mem inside)
  simpa using other

section Order

variable [LT κ] {table : Table κ α} {key : κ} {value : α}

omit [DecidableEq κ] in
theorem ascending_cons : Ascending ((key, value) :: table) ↔ (∀ later ∈ table, key < later.1) ∧ Ascending table := by
  simp [Ascending, keys, List.pairwise_cons]

theorem lookup_of_mem [Std.Irrefl fun first second : κ => first < second] (ascending : Ascending table)
    (member : (key, value) ∈ table) : table.lookup key = some value := by
  induction table with
  | nil => simp at member
  | cons head rest ih =>
    obtain ⟨first, old⟩ := head
    obtain ⟨before, ascending⟩ := ascending_cons.mp ascending
    rcases List.mem_cons.mp member with same | member
    · obtain ⟨rfl, rfl⟩ := Prod.mk.inj same
      simp [lookup]
    · have later : first < key := before _ member
      have different : first ≠ key := fun same => Std.Irrefl.irrefl key (same ▸ later)
      simp only [lookup, different, if_false]
      exact ih ascending member

variable [DecidableLT κ]

theorem mem_insert {entry : κ × α} (member : entry ∈ table.insert key value) :
    entry = (key, value) ∨ entry ∈ table := by
  induction table with
  | nil => simpa [Table.insert] using member
  | cons head rest ih =>
    obtain ⟨first, old⟩ := head
    simp only [Table.insert] at member
    split at member
    · rcases List.mem_cons.mp member with same | later
      · exact .inl same
      · exact .inr (List.mem_cons_of_mem _ later)
    · split at member
      · rcases List.mem_cons.mp member with same | later
        · exact .inl same
        · exact .inr later
      · rcases List.mem_cons.mp member with same | later
        · exact .inr (by simp [same])
        · exact (ih later).imp_right (List.mem_cons_of_mem _)

/-- A key that is new is added, and nothing else changes but the order. -/
theorem perm_insert (absent : key ∉ table.keys) : (table.insert key value).Perm ((key, value) :: table) := by
  induction table with
  | nil => exact .refl _
  | cons head rest ih =>
    obtain ⟨first, old⟩ := head
    have different : key ≠ first := fun same => absent (same ▸ List.mem_cons_self ..)
    have absent : key ∉ keys rest := fun inside => absent (List.mem_cons_of_mem _ inside)
    simp only [Table.insert, if_neg different]
    split
    · exact .refl _
    · exact ((ih absent).cons _).trans (.swap ..)

theorem ascending_insert [IsTrans κ (· < ·)] [Std.Trichotomous fun first second : κ => first < second]
    (ascending : Ascending table) : Ascending (table.insert key value) := by
  induction table with
  | nil => simp [Table.insert, Ascending, keys]
  | cons head rest ih =>
    obtain ⟨first, old⟩ := head
    obtain ⟨before, later⟩ := ascending_cons.mp ascending
    simp only [Table.insert]
    split
    · rename_i same
      subst same
      exact ascending_cons.mpr ⟨before, later⟩
    · split
      · rename_i first
        refine ascending_cons.mpr ⟨?_, ascending⟩
        intro entry member
        rcases List.mem_cons.mp member with same | member
        · rw [same]; exact first
        · exact trans_of (· < ·) first (before entry member)
      · rename_i different notBefore
        refine ascending_cons.mpr ⟨?_, ih later⟩
        intro entry member
        rcases mem_insert member with same | member
        · subst same
          exact Decidable.byContradiction fun notAfter =>
            different (Std.Trichotomous.trichotomous _ _ notBefore notAfter)
        · exact before entry member

end Order

section Names

variable {table other : Fields α}

theorem head_eq_of_lookup_eq {key later : String} {value last : α} (ascending : Ascending ((key, value) :: table))
    (others : Ascending ((later, last) :: other))
    (same : ∀ name, lookup ((key, value) :: table) name = lookup ((later, last) :: other) name) : key = later := by
  have atKey : (key, value) ∈ (later, last) :: other := mem_of_lookup (by rw [← same]; simp [lookup])
  have atLater : (later, last) ∈ (key, value) :: table := mem_of_lookup (by rw [same]; simp [lookup])
  rcases List.mem_cons.mp atKey with here | inOther
  · exact (Prod.mk.inj here).1
  rcases List.mem_cons.mp atLater with here | inTable
  · exact (Prod.mk.inj here).1.symm
  have less := (ascending_cons.mp ascending).1 _ inTable
  have greater := (ascending_cons.mp others).1 _ inOther
  exact absurd greater (String.lt_asymm less)

/-- An ascending table is determined by its lookups. -/
theorem eq_of_lookup_eq (ascending : Ascending table) (others : Ascending other)
    (same : ∀ name, table.lookup name = other.lookup name) : table = other := by
  induction table generalizing other with
  | nil =>
    cases other with
    | nil => rfl
    | cons head rest => simpa [lookup] using same head.1
  | cons head rest ih =>
    cases other with
    | nil => simpa [lookup] using same head.1
    | cons second others' =>
      obtain ⟨key, value⟩ := head
      obtain ⟨later, last⟩ := second
      obtain rfl := head_eq_of_lookup_eq ascending others same
      obtain rfl : value = last := by simpa [lookup] using same key
      obtain ⟨before, tail⟩ := ascending_cons.mp ascending
      obtain ⟨beforeOther, tailOther⟩ := ascending_cons.mp others
      have absent : lookup rest key = none := by
        rw [lookup_eq_none]
        intro member
        obtain ⟨entry, inside, named⟩ := List.mem_map.mp member
        exact String.lt_irrefl key (named ▸ before entry inside)
      have absentOther : lookup others' key = none := by
        rw [lookup_eq_none]
        intro member
        obtain ⟨entry, inside, named⟩ := List.mem_map.mp member
        exact String.lt_irrefl key (named ▸ beforeOther entry inside)
      rw [ih tail tailOther]
      intro name
      by_cases here : name = key
      · rw [here, absent, absentOther]
      · simpa [lookup, Ne.symm here] using same name

theorem insert_of_last {key : String} {value : α} (last : ∀ entry ∈ table, entry.1 < key) :
    table.insert key value = table ++ [(key, value)] := by
  induction table with
  | nil => rfl
  | cons head rest ih =>
    obtain ⟨first, old⟩ := head
    have before : first < key := last (first, old) (List.mem_cons_self ..)
    have later := ih fun entry inside => last entry (List.mem_cons_of_mem _ inside)
    simp [Table.insert, (String.ne_of_lt before).symm, String.lt_asymm before, later]

theorem foldl_insert_of_ascending (ascending : Ascending (table ++ other)) :
    other.foldl (fun table entry => table.insert entry.1 entry.2) table = table ++ other := by
  induction other generalizing table with
  | nil => simp
  | cons head rest ih =>
    obtain ⟨key, value⟩ := head
    have last : ∀ entry ∈ table, entry.1 < key := by
      intro entry inside
      simp only [Ascending, keys, List.map_append, List.pairwise_append] at ascending
      exact ascending.2.2 entry.1 (List.mem_map_of_mem inside) key (by simp)
    have moved : Ascending (table ++ [(key, value)] ++ rest) := by simpa using ascending
    rw [List.foldl_cons, insert_of_last last, ih moved]
    simp

theorem ofList_of_ascending (ascending : Ascending table) : ofList table = table :=
  foldl_insert_of_ascending ascending

theorem lookup_filter (keep : String → Bool) (name : String) :
    lookup (table.filter fun entry => keep entry.1) name = if keep name then table.lookup name else none := by
  induction table with
  | nil => simp [lookup]
  | cons head rest ih =>
    obtain ⟨key, value⟩ := head
    by_cases same : key = name
    · subst same
      cases kept : keep key with
      | true => simp [lookup, kept]
      | false => simpa [kept] using ih
    · cases kept : keep key with
      | true => simpa [List.filter_cons, lookup, kept, same] using ih
      | false => simpa [List.filter_cons, lookup, kept, same] using ih

theorem ascending_filter (keep : String × α → Bool) (ascending : Ascending table) : Ascending (table.filter keep) :=
  ascending.sublist (List.filter_sublist.map Prod.fst)

/-- What is written over a table is found there, and the table elsewhere. -/
theorem lookup_foldl_insert (ascending : Ascending other) (table : Fields α) (name : String) :
    (other.foldl (fun table entry => table.insert entry.1 entry.2) table).lookup name =
      (other.lookup name).or (table.lookup name) := by
  induction other generalizing table with
  | nil => simp [lookup]
  | cons head rest ih =>
    obtain ⟨key, value⟩ := head
    obtain ⟨before, later⟩ := ascending_cons.mp ascending
    rw [List.foldl_cons, ih later, lookup_insert]
    by_cases here : name = key
    · subst here
      have absent : lookup rest name = none := lookup_eq_none.mpr fun inside => by
        obtain ⟨entry, member, named⟩ := List.mem_map.mp inside
        exact String.lt_irrefl name (named ▸ before entry member)
      simp [lookup, absent]
    · simp [lookup, here, Ne.symm here]

theorem ascending_foldl_insert (ascending : Ascending table) :
    Ascending (other.foldl (fun table entry => table.insert entry.1 entry.2) table) := by
  induction other generalizing table with
  | nil => exact ascending
  | cons head rest ih => exact ih (ascending_insert ascending)

theorem mem_foldl_insert {entry : String × α}
    (inside : entry ∈ other.foldl (fun table entry => table.insert entry.1 entry.2) table) :
    entry ∈ other ∨ entry ∈ table := by
  induction other generalizing table with
  | nil => exact .inr inside
  | cons head rest ih =>
    rcases ih inside with later | early
    · exact .inl (List.mem_cons_of_mem _ later)
    · rcases mem_insert early with rfl | old
      · exact .inl (List.mem_cons_self ..)
      · exact .inr old

end Names

/-- Tables of the same names in the same order, in which values of one name are related. -/
inductive Derived {β : Type v} (relation : String → α → β → Prop) : Fields α → Fields β → Prop
  | nil : Derived relation [] []
  | cons {name old new olds news} (first : relation name old new) (later : Derived relation olds news) :
      Derived relation ((name, old) :: olds) ((name, new) :: news)

namespace Derived

variable {β : Type v} {relation : String → α → β → Prop} {olds : Fields α} {news : Fields β}

theorem keys_eq (derived : Derived relation olds news) : keys news = keys olds := by
  induction derived with
  | nil => rfl
  | @cons name _ _ _ _ _ _ ih => exact congrArg (name :: ·) ih

theorem ascending (derived : Derived relation olds news) (ascending : Ascending olds) : Ascending news := by
  rwa [Ascending, derived.keys_eq]

theorem imp {other : String → α → β → Prop} (weaker : ∀ name old new, relation name old new → other name old new)
    (derived : Derived relation olds news) : Derived other olds news := by
  induction derived with
  | nil => exact .nil
  | cons first _ ih => exact .cons (weaker _ _ _ first) ih

theorem lookup (derived : Derived relation olds news) (wanted : String) :
    Option.Rel (relation wanted) (Table.lookup olds wanted) (Table.lookup news wanted) := by
  induction derived with
  | nil => exact .none
  | @cons name old new olds news first _ ih =>
    by_cases same : name = wanted
    · subst same
      simpa only [Table.lookup, if_true] using .some first
    · simpa only [Table.lookup, if_neg same] using ih

theorem origin (derived : Derived relation olds news) {member : String × β} (inside : member ∈ news) :
    ∃ old, (member.1, old) ∈ olds ∧ relation member.1 old member.2 := by
  induction derived with
  | nil => cases inside
  | @cons name old new olds news first _ ih =>
    rcases List.mem_cons.mp inside with rfl | inside
    · exact ⟨old, List.mem_cons_self .., first⟩
    · obtain ⟨other, among, related⟩ := ih inside
      exact ⟨other, List.mem_cons_of_mem _ among, related⟩

theorem image (derived : Derived relation olds news) {member : String × α} (inside : member ∈ olds) :
    ∃ new, (member.1, new) ∈ news ∧ relation member.1 member.2 new := by
  induction derived with
  | nil => cases inside
  | @cons name old new olds news first _ ih =>
    rcases List.mem_cons.mp inside with rfl | inside
    · exact ⟨new, List.mem_cons_self .., first⟩
    · obtain ⟨other, among, related⟩ := ih inside
      exact ⟨other, List.mem_cons_of_mem _ among, related⟩

end Derived

end ResourceKinds.Table
