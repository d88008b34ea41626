import ResourceKinds.Json.Basic
import ResourceKinds.Proofs.Tables

namespace ResourceKinds.Json

/-- One step into a value: to a member of an object or to an item of a list. -/
inductive Step where
  | member (name : String)
  | item (position : Nat)
deriving DecidableEq

/-- A place in a value, from the outside in. -/
abbrev Path := List Step

def at? : Json → Path → Option Json
  | value, [] => some value
  | .object members, .member name :: rest => match Table.lookup members name with
    | some value => value.at? rest
    | none => none
  | .array items, .item position :: rest => match items[position]? with
    | some value => value.at? rest
    | none => none
  | _, _ :: _ => none

def has (value : Json) (path : Path) : Bool := (value.at? path).isSome

mutual

/-- The value with the fields whose paths are to be kept. -/
def retain (keep : Path → Bool) : Json → Json
  | .object members => .object (retainMembers keep members)
  | .array items => .array (retainItems keep 0 items)
  | value => value

def retainMembers (keep : Path → Bool) : List (String × Json) → List (String × Json)
  | [] => []
  | (name, value) :: rest =>
    if keep [.member name] then
      (name, value.retain fun path => keep (.member name :: path)) :: retainMembers keep rest
    else retainMembers keep rest

def retainItems (keep : Path → Bool) (position : Nat) : List Json → List Json
  | [] => []
  | item :: rest => (item.retain fun path => keep (.item position :: path)) :: retainItems keep (position + 1) rest

end

/-- The value without the fields at the given paths. -/
def without (gone : Path → Bool) (value : Json) : Json := value.retain fun path => !gone path

/-- Every field that a path goes through is kept. -/
def keepsWay (keep : Path → Bool) : Path → Bool
  | [] => true
  | .member name :: rest => keep [.member name] && keepsWay (fun path => keep (.member name :: path)) rest
  | .item position :: rest => keepsWay (fun path => keep (.item position :: path)) rest

mutual

theorem retain_all : (value : Json) → value.retain (fun _ => true) = value
  | .null => rfl
  | .bool _ => rfl
  | .number _ => rfl
  | .string _ => rfl
  | .array items => by rw [retain, retainItems_all]
  | .object members => by rw [retain, retainMembers_all]

theorem retainMembers_all : (members : List (String × Json)) → retainMembers (fun _ => true) members = members
  | [] => rfl
  | (name, value) :: rest => by
    simp only [retainMembers, if_true]
    rw [retain_all value, retainMembers_all rest]

theorem retainItems_all (position : Nat) : (items : List Json) → retainItems (fun _ => true) position items = items
  | [] => rfl
  | item :: rest => by
    simp only [retainItems]
    rw [retain_all item, retainItems_all _ rest]

end

theorem retainMembers_open {keep : Path → Bool} (all : ∀ name path, keep (.member name :: path) = true)
    (members : List (String × Json)) : retainMembers keep members = members := by
  induction members with
  | nil => rfl
  | cons head rest ih =>
    obtain ⟨name, value⟩ := head
    simp only [retainMembers, all, if_true, retain_all, ih]

theorem retainMembers_none {keep : Path → Bool} (gone : ∀ name, keep [.member name] = false)
    (members : List (String × Json)) : retainMembers keep members = [] := by
  induction members with
  | nil => rfl
  | cons head rest ih =>
    obtain ⟨name, value⟩ := head
    simp only [retainMembers, gone, Bool.false_eq_true, if_false, ih]

theorem retainItems_open {keep : Path → Bool} (all : ∀ position path, keep (.item position :: path) = true)
    (start : Nat) (items : List Json) : retainItems keep start items = items := by
  induction items generalizing start with
  | nil => rfl
  | cons item rest ih => simp only [retainItems, all, retain_all, ih]

mutual

/-- Keeping fields twice keeps those that are kept both times. -/
theorem retain_retain (first second : Path → Bool) : (value : Json) →
    (value.retain first).retain second = value.retain fun path => first path && second path
  | .null => rfl
  | .bool _ => rfl
  | .number _ => rfl
  | .string _ => rfl
  | .array items => by simp only [retain, retainItems_retainItems]
  | .object members => by simp only [retain, retainMembers_retainMembers]

theorem retainMembers_retainMembers (first second : Path → Bool) : (members : List (String × Json)) →
    retainMembers second (retainMembers first members) = retainMembers (fun path => first path && second path) members
  | [] => rfl
  | (name, value) :: rest => by
    have later := retainMembers_retainMembers first second rest
    have inner := retain_retain (fun path => first (.member name :: path))
      (fun path => second (.member name :: path)) value
    by_cases early : first [.member name] = true
    · by_cases late : second [.member name] = true <;> simp [retainMembers, early, late, inner, later]
    · simp [retainMembers, early, later]

theorem retainItems_retainItems (first second : Path → Bool) (position : Nat) : (items : List Json) →
    retainItems second position (retainItems first position items) =
      retainItems (fun path => first path && second path) position items
  | [] => rfl
  | item :: rest => by
    have later := retainItems_retainItems first second (position + 1) rest
    have inner := retain_retain (fun path => first (.item position :: path))
      (fun path => second (.item position :: path)) item
    simp only [retainItems, inner, later]

end

theorem retain_comm (first second : Path → Bool) (value : Json) :
    (value.retain first).retain second = (value.retain second).retain first := by
  rw [retain_retain, retain_retain]
  simp only [Bool.and_comm]

/-- Keeping more first makes no difference. -/
theorem retain_retain_of_le {keep other : Path → Bool} (more : ∀ path, keep path = true → other path = true)
    (value : Json) : (value.retain other).retain keep = value.retain keep := by
  have both : (fun path => other path && keep path) = keep := by
    funext path
    cases kept : keep path with
    | true => rw [more path kept, Bool.and_true]
    | false => rw [Bool.and_false]
  rw [retain_retain, both]

theorem retain_idem (keep : Path → Bool) (value : Json) : (value.retain keep).retain keep = value.retain keep :=
  retain_retain_of_le (fun _ kept => kept) value

theorem lookup_retainMembers (keep : Path → Bool) (name : String) (members : List (String × Json)) :
    Table.lookup (retainMembers keep members) name =
      if keep [.member name] then (Table.lookup members name).map (retain fun path => keep (.member name :: path))
      else none := by
  induction members with
  | nil => simp [retainMembers, Table.lookup]
  | cons head rest ih =>
    obtain ⟨key, value⟩ := head
    by_cases same : key = name
    · subst same
      by_cases kept : keep [.member key] = true
      · simp [retainMembers, Table.lookup, kept]
      · simpa [retainMembers, Table.lookup, kept] using ih
    · by_cases kept : keep [.member key] = true <;> simpa [retainMembers, Table.lookup, kept, same] using ih

theorem getElem?_retainItems (keep : Path → Bool) (items : List Json) (start position : Nat) :
    (retainItems keep start items)[position]? =
      (items[position]?).map (retain fun path => keep (.item (start + position) :: path)) := by
  induction items generalizing start position with
  | nil => simp [retainItems]
  | cons item rest ih =>
    cases position with
    | zero => simp [retainItems]
    | succ position =>
      simp only [retainItems, List.getElem?_cons_succ, ih]
      simp only [Nat.add_assoc, Nat.add_comm 1]

/-- What is left of a place: nothing if a field on the way to it is gone, and otherwise what was
there, without what is gone below it. -/
theorem at?_retain (keep : Path → Bool) (value : Json) (path : Path) :
    (value.retain keep).at? path =
      if keepsWay keep path then (value.at? path).map (retain fun below => keep (path ++ below)) else none := by
  induction path generalizing value keep with
  | nil => simp [at?, keepsWay]
  | cons step rest ih =>
    cases step with
    | member name =>
      cases value with
      | object members =>
        simp only [retain, at?, keepsWay, lookup_retainMembers]
        by_cases kept : keep [.member name] = true
        · cases Table.lookup members name with
          | none => simp [kept]
          | some inner => simp [kept, ih]
        · simp [kept]
      | _ => simp [retain, at?]
    | item position =>
      cases value with
      | array items =>
        rw [keepsWay]
        simp only [retain, at?, getElem?_retainItems, Nat.zero_add]
        cases items[position]? with
        | none => simp
        | some inner => simp [ih]
      | _ => simp [retain, at?]

theorem has_retain (keep : Path → Bool) (value : Json) (path : Path) :
    (value.retain keep).has path = (value.has path && keepsWay keep path) := by
  simp only [has, at?_retain]
  cases keepsWay keep path <;> simp

theorem keepsWay_and (first second : Path → Bool) (path : Path) :
    keepsWay (fun path => first path && second path) path = (keepsWay first path && keepsWay second path) := by
  induction path generalizing first second with
  | nil => rfl
  | cons step rest ih =>
    cases step with
    | member name =>
      simp only [keepsWay, ih]
      cases first [.member name] <;> cases second [.member name] <;> simp
    | item position => simp only [keepsWay, ih]

mutual

/-- A field is reached only through fields that are kept, so that nothing but these count. -/
theorem retain_keepsWay (keep : Path → Bool) : (value : Json) → value.retain (keepsWay keep) = value.retain keep
  | .null => rfl
  | .bool _ => rfl
  | .number _ => rfl
  | .string _ => rfl
  | .array items => by simp only [retain, retainItems_keepsWay]
  | .object members => by simp only [retain, retainMembers_keepsWay]

theorem retainMembers_keepsWay (keep : Path → Bool) : (members : List (String × Json)) →
    retainMembers (keepsWay keep) members = retainMembers keep members
  | [] => rfl
  | (name, value) :: rest => by
    have later := retainMembers_keepsWay keep rest
    have inner := retain_keepsWay (fun path => keep (.member name :: path)) value
    by_cases kept : keep [.member name] = true
    · simp [retainMembers, keepsWay, kept, inner, later]
    · simp [retainMembers, keepsWay, kept, later]

theorem retainItems_keepsWay (keep : Path → Bool) (position : Nat) : (items : List Json) →
    retainItems (keepsWay keep) position items = retainItems keep position items
  | [] => rfl
  | item :: rest => by
    have later := retainItems_keepsWay keep (position + 1) rest
    have inner := retain_keepsWay (fun path => keep (.item position :: path)) item
    simp only [retainItems, keepsWay, inner, later]

end

mutual

theorem retain_congr {keep other : Path → Bool} : (value : Json) → value.WellFormed →
    (∀ path, value.has path = true → keep path = other path) → value.retain keep = value.retain other
  | .null, _, _ => rfl
  | .bool _, _, _ => rfl
  | .number _, _, _ => rfl
  | .string _, _, _ => rfl
  | .array items, wellFormed, same => by
    simp only [retain]
    rw [retainItems_congr 0 items wellFormed]
    intro position item found path present
    rw [Nat.zero_add]
    exact same _ (by simpa [has, at?, found] using present)
  | .object members, wellFormed, same => by
    simp only [retain]
    rw [retainMembers_congr members wellFormed.2]
    intro name value inside path present
    have found := Table.lookup_of_mem wellFormed.1 inside
    exact same _ (by simpa [has, at?, found] using present)

theorem retainMembers_congr {keep other : Path → Bool} : (members : List (String × Json)) → WellFormedMembers members →
    (∀ name value, (name, value) ∈ members → ∀ path, value.has path = true →
      keep (.member name :: path) = other (.member name :: path)) →
    retainMembers keep members = retainMembers other members
  | [], _, _ => rfl
  | (name, value) :: rest, wellFormed, same => by
    have here := same name value (List.mem_cons_self ..)
    have later := retainMembers_congr rest wellFormed.2 fun name value inside =>
      same name value (List.mem_cons_of_mem _ inside)
    have inner := retain_congr value wellFormed.1 here
    have first := here [] rfl
    simp only [retainMembers, first, inner, later]

theorem retainItems_congr {keep other : Path → Bool} (start : Nat) : (items : List Json) → WellFormedItems items →
    (∀ position item, items[position]? = some item → ∀ path, item.has path = true →
      keep (.item (start + position) :: path) = other (.item (start + position) :: path)) →
    retainItems keep start items = retainItems other start items
  | [], _, _ => rfl
  | item :: rest, wellFormed, same => by
    have later := retainItems_congr (start + 1) rest wellFormed.2 fun position item found => by
      have next := same (position + 1) item (by simpa using found)
      rwa [Nat.add_comm position, ← Nat.add_assoc] at next
    have inner := retain_congr item wellFormed.1 (same 0 item rfl)
    rw [Nat.add_zero] at inner
    simp only [retainItems, inner, later]

end

/-- What keeping two sets of fields leaves, said by what either of them takes away. -/
theorem retain_and_eq_without {value : Json} (wellFormed : value.WellFormed) (first second : Path → Bool) :
    value.retain (fun path => first path && second path) =
      value.without fun path =>
        (value.has path && !(value.retain first).has path) || (value.has path && !(value.retain second).has path) := by
  rw [← retain_keepsWay, without]
  refine retain_congr value wellFormed fun path present => ?_
  simp only [keepsWay_and, has_retain, present, Bool.true_and, Bool.not_or, Bool.not_not]

theorem keys_retainMembers (keep : Path → Bool) (members : List (String × Json)) :
    Table.keys (retainMembers keep members) = (Table.keys members).filter fun name => keep [.member name] := by
  induction members with
  | nil => rfl
  | cons head rest ih =>
    obtain ⟨name, value⟩ := head
    simp only [Table.keys] at ih ⊢
    by_cases kept : keep [.member name] = true <;> simp [retainMembers, kept, ih]

theorem ascending_retainMembers {keep : Path → Bool} {members : Fields Json} (ascending : Table.Ascending members) :
    Table.Ascending (retainMembers keep members) := by
  unfold Table.Ascending
  rw [keys_retainMembers]
  exact List.Pairwise.filter _ ascending

mutual

theorem WellFormed.retain {keep : Path → Bool} : {value : Json} → value.WellFormed → (value.retain keep).WellFormed
  | .null, wellFormed | .bool _, wellFormed | .number _, wellFormed | .string _, wellFormed => wellFormed
  | .array _, wellFormed => WellFormedItems.retain wellFormed
  | .object _, wellFormed => ⟨ascending_retainMembers wellFormed.1, WellFormedMembers.retain wellFormed.2⟩

theorem WellFormedMembers.retain {keep : Path → Bool} : {members : List (String × Json)} →
    WellFormedMembers members → WellFormedMembers (retainMembers keep members)
  | [], _ => trivial
  | (name, value) :: rest, wellFormed => by
    have inner : (value.retain fun path => keep (.member name :: path)).WellFormed := wellFormed.1.retain
    have later : WellFormedMembers (retainMembers keep rest) := wellFormed.2.retain
    simp only [retainMembers]
    split
    · exact ⟨inner, later⟩
    · exact later

theorem WellFormedItems.retain {keep : Path → Bool} {start : Nat} : {items : List Json} →
    WellFormedItems items → WellFormedItems (retainItems keep start items)
  | [], _ => trivial
  | _ :: _, wellFormed => ⟨WellFormed.retain wellFormed.1, WellFormedItems.retain wellFormed.2⟩

end

end ResourceKinds.Json
