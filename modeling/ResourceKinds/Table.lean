namespace ResourceKinds

/-- Pairs of keys and values. -/
abbrev Table (κ : Type u) (α : Type v) := List (κ × α)

abbrev Fields (α : Type u) := Table String α

namespace Table

variable {κ : Type w} {α : Type u} {β : Type v}

def keys (table : Table κ α) : List κ := table.map Prod.fst

def values (table : Table κ α) : List α := table.map Prod.snd

def lookup [DecidableEq κ] : Table κ α → κ → Option α
  | [], _ => none
  | (key, value) :: rest, wanted => if key = wanted then some value else lookup rest wanted

def contains [DecidableEq κ] (table : Table κ α) (key : κ) : Bool := (table.lookup key).isSome

/-- Puts a value in its place, replacing the one of the same key. -/
def insert [DecidableEq κ] [LT κ] [DecidableLT κ] : Table κ α → κ → α → Table κ α
  | [], key, value => [(key, value)]
  | (first, old) :: rest, key, value =>
    if key = first then (key, value) :: rest
    else if key < first then (key, value) :: (first, old) :: rest
    else (first, old) :: insert rest key value

def erase [DecidableEq κ] (table : Table κ α) (key : κ) : Table κ α := table.filter (·.1 ≠ key)

/-- Later values replace earlier ones of the same key. -/
def ofList [DecidableEq κ] [LT κ] [DecidableLT κ] (entries : List (κ × α)) : Table κ α :=
  entries.foldl (fun table entry => table.insert entry.1 entry.2) []

/-- The keys strictly increase, so that there is at most one entry of each key, and one spelling per content. -/
def Ascending [LT κ] (table : Table κ α) : Prop := table.keys.Pairwise (· < ·)

variable [DecidableEq κ] [LT κ] [DecidableLT κ]

theorem lookup_insert_self (table : Table κ α) (key : κ) (value : α) :
    (table.insert key value).lookup key = some value := by
  induction table with
  | nil => simp [insert, lookup]
  | cons head rest ih =>
    obtain ⟨first, old⟩ := head
    by_cases same : key = first
    · simp [insert, lookup, same]
    · by_cases before : key < first
      · simp [insert, lookup, same, before]
      · simp [insert, lookup, same, before, ih, Ne.symm same]

theorem lookup_insert_of_ne (table : Table κ α) {key other : κ} (value : α) (different : other ≠ key) :
    (table.insert key value).lookup other = table.lookup other := by
  induction table with
  | nil => simp [insert, lookup, different.symm]
  | cons head rest ih =>
    obtain ⟨first, old⟩ := head
    by_cases same : key = first
    · subst same; simp [insert, lookup, different.symm]
    · by_cases before : key < first
      · simp [insert, lookup, same, before, different.symm]
      · simp [insert, lookup, same, before, ih]

omit [LT κ] [DecidableLT κ] in
theorem lookup_erase_self (table : Table κ α) (key : κ) : (table.erase key).lookup key = none := by
  induction table with
  | nil => simp [erase, lookup]
  | cons head rest ih =>
    obtain ⟨first, old⟩ := head
    by_cases same : first = key
    · simpa [erase, same] using ih
    · simpa [erase, same, lookup] using ih

end Table

end ResourceKinds
