import ResourceKinds.Schema.Reader
import ResourceKinds.Proofs.Json.Portable
import ResourceKinds.Proofs.Tables

namespace ResourceKinds

/-- Puts a value in its place if there is one. -/
def Table.insertSome (table : Fields Json) (key : String) : Option Json → Fields Json
  | none => table
  | some value => table.insert key value

theorem Table.lookup_insertSome (table : Fields Json) (key name : String) (value : Option Json) :
    (table.insertSome key value).lookup name =
      if name = key then value.or (table.lookup name) else table.lookup name := by
  cases value with
  | none => simp [insertSome]
  | some value => simp [insertSome, lookup_insert]

theorem Table.insertSome_when (table : Fields Json) (key : String) (condition : Bool) (value : Json) :
    table.insertSome key (if condition then some value else none) =
      if condition then table.insert key value else table := by
  cases condition <;> rfl

theorem Table.insertSome_unless (table : Fields Json) (key : String) (condition : Bool) (value : Json) :
    table.insertSome key (if condition then none else some value) =
      if condition then table else table.insert key value := by
  cases condition <;> rfl

theorem Table.ascending_insertSome {table : Fields Json} (ascending : Ascending table) (key : String)
    (value : Option Json) : Ascending (table.insertSome key value) := by
  cases value with
  | none => exact ascending
  | some value => exact ascending_insert ascending

theorem Table.wellFormed_insertSome {table : Fields Json} (wellFormed : ∀ member ∈ table, member.2.WellFormed)
    {key : String} {value : Option Json} (written : ∀ document, value = some document → document.WellFormed) :
    ∀ member ∈ table.insertSome key value, member.2.WellFormed := by
  cases value with
  | none => exact wellFormed
  | some document =>
    intro member inside
    rcases mem_insert inside with rfl | old
    · exact written document rfl
    · exact wellFormed member old

/-- The keywords that a node of this kind is made of, its annotations apart. -/
def NodeKind.parts : NodeKind → List String
  | .object => ["type", "properties", "required", "additionalProperties", preserveKey]
  | .array => ["type", "items"]
  | .scalar _ => ["type"]

theorem NodeKind.mem_keywords {kind : NodeKind} {key : String} :
    key ∈ kind.keywords ↔ key = "description" ∨ key = "nullable" ∨ key ∈ kind.parts := by
  cases kind <;> simp only [keywords, parts, List.mem_cons, List.not_mem_nil, or_false] <;> grind

theorem NodeKind.ne_of_mem_parts {kind : NodeKind} {key : String} (inside : key ∈ kind.parts) :
    key ≠ "description" ∧ key ≠ "nullable" := by
  constructor <;> rintro rfl <;> cases kind <;> simp [parts, preserveKey] at inside

/-- A node of this kind does not have the keyword among its annotations: it is read as a part of the node,
or the node would be one of another kind. -/
inductive NodeKind.Claims : NodeKind → String → Prop
  | reference {kind} : Claims kind "$ref"
  | keyword {kind key} (inside : key ∈ kind.keywords) : Claims kind key
  | shape {key} (inside : key ∈ ["properties", "additionalProperties", preserveKey, "items"]) :
      Claims (.scalar none) key

/-- Only a document without a type and without a shape is one of a scalar of any type. -/
theorem NodeKind.bare_of_ofMembers {members : Fields Json} (ofKind : ofMembers members = .ok (.scalar none)) :
    members.lookup "type" = none ∧ members.lookup "properties" = none ∧ members.lookup "additionalProperties" = none ∧
      members.lookup preserveKey = none ∧ members.lookup "items" = none := by
  unfold ofMembers at ofKind
  split at ofKind
  · cases ofKind
  · cases ofKind
  · split at ofKind <;> cases ofKind
  · cases ofKind
  · rename_i untyped
    split at ofKind
    · cases ofKind
    split at ofKind
    · cases ofKind
    rename_i noShape noItems
    simp only [Table.contains, Bool.or_eq_true, not_or, Bool.not_eq_true, Option.isSome_eq_false_iff,
      Option.isNone_iff_eq_none] at noShape noItems
    exact ⟨untyped, noShape.1.1, noShape.1.2, noShape.2, noItems⟩

theorem NodeKind.lookup_type {members : Fields Json} (ofKind : ofMembers members = .ok (.scalar none)) :
    members.lookup "type" = none :=
  (bare_of_ofMembers ofKind).1

theorem NodeKind.lookup_shape {members : Fields Json} (ofKind : ofMembers members = .ok (.scalar none)) {key : String}
    (inside : key ∈ ["properties", "additionalProperties", preserveKey, "items"]) : members.lookup key = none := by
  obtain ⟨_, properties, additional, preserve, items⟩ := bare_of_ofMembers ofKind
  simp only [List.mem_cons, List.not_mem_nil, or_false] at inside
  obtain rfl | rfl | rfl | rfl := inside
  · exact properties
  · exact additional
  · exact preserve
  · exact items

namespace Annotations

/-- What is kept besides the keywords of a node of this kind. -/
structure Apart (annotations : Annotations) (kind : NodeKind) : Prop where
  ascending : Table.Ascending annotations.extra
  wellFormed : ∀ member ∈ annotations.extra, member.2.WellFormed
  unclaimed : ∀ key, kind.Claims key → annotations.extra.lookup key = none

theorem apart_empty (kind : NodeKind) : empty.Apart kind := by
  refine ⟨?_, nofun, fun _ _ => rfl⟩
  simp [empty, Table.Ascending, Table.keys]

theorem apart_ofMembers {members : Fields Json} {kind : NodeKind} (ascending : Table.Ascending members)
    (wellFormed : ∀ member ∈ members, member.2.WellFormed) (noReference : members.lookup "$ref" = none)
    (ofKind : NodeKind.ofMembers members = .ok kind) : (ofMembers kind members).Apart kind := by
  refine ⟨Table.ascending_filter _ ascending, fun member inside => wellFormed member (List.mem_filter.mp inside).1, ?_⟩
  intro key claims
  refine (Table.lookup_filter (fun key => !kind.keywords.contains key) key).trans ?_
  cases claims with
  | reference => rw [noReference, ite_self]
  | keyword inside => simp [inside]
  | shape inside => rw [NodeKind.lookup_shape ofKind inside, ite_self]

/-- Rendered annotations, spelled out one keyword after the other. -/
theorem write_eq (annotations : Annotations) (members : Fields Json) :
    annotations.write members = annotations.extra.foldl (fun members extra => members.insert extra.1 extra.2)
      ((Table.insertSome members "description" (annotations.description.map Json.string)).insertSome "nullable"
        (if annotations.nullable then some (.bool true) else none)) := by
  unfold write
  cases annotations.nullable <;> cases annotations.description <;> rfl

theorem lookup_write {annotations : Annotations} (ascending : Table.Ascending annotations.extra)
    (members : Fields Json) (key : String) :
    (annotations.write members).lookup key = (annotations.extra.lookup key).or
      (if key = "nullable" then (if annotations.nullable then some (.bool true) else none).or (members.lookup key)
        else if key = "description" then (annotations.description.map Json.string).or (members.lookup key)
        else members.lookup key) := by
  rw [write_eq, Table.lookup_foldl_insert ascending, Table.lookup_insertSome, Table.lookup_insertSome]
  by_cases nullable : key = "nullable"
  · subst nullable
    rfl
  · simp only [nullable, if_false]

theorem ascending_write {members : Fields Json} (annotations : Annotations) (ascending : Table.Ascending members) :
    Table.Ascending (annotations.write members) := by
  rw [write_eq]
  exact Table.ascending_foldl_insert (Table.ascending_insertSome (Table.ascending_insertSome ascending _ _) _ _)

theorem wellFormed_write {annotations : Annotations} {members : Fields Json}
    (extra : ∀ member ∈ annotations.extra, member.2.WellFormed) (wellFormed : ∀ member ∈ members, member.2.WellFormed) :
    ∀ member ∈ annotations.write members, member.2.WellFormed := by
  rw [write_eq]
  intro member inside
  rcases Table.mem_foldl_insert inside with added | old
  · exact extra member added
  refine Table.wellFormed_insertSome (Table.wellFormed_insertSome wellFormed ?_) ?_ member old
  · intro document written
    obtain ⟨text, _, rfl⟩ := Option.map_eq_some_iff.mp written
    trivial
  · intro document written
    split at written
    · obtain rfl := Option.some.inj written
      trivial
    · cases written

/-- Members that annotations are written over: parts of a node of this kind. -/
structure Own (kind : NodeKind) (members : Fields Json) : Prop where
  ascending : Table.Ascending members
  parts : ∀ key, members.lookup key ≠ none → key ∈ kind.parts

variable {annotations : Annotations} {kind : NodeKind} {members : Fields Json}

theorem Own.lookup_eq_none (own : Own kind members) {key : String} (outside : key ∉ kind.parts) :
    members.lookup key = none :=
  Decidable.byContradiction fun found => outside (own.parts key found)

/-- What a node of the kind claims is found as it was before the annotations were written over it. -/
theorem Apart.lookup_write (apart : annotations.Apart kind) {key : String} (claims : kind.Claims key)
    (notText : key ≠ "description") (notMark : key ≠ "nullable") :
    (annotations.write members).lookup key = members.lookup key := by
  rw [Annotations.lookup_write apart.ascending, apart.unclaimed key claims, if_neg notMark, if_neg notText]
  rfl

theorem Apart.lookup_part (apart : annotations.Apart kind) {key : String} (inside : key ∈ kind.parts) :
    (annotations.write members).lookup key = members.lookup key := by
  obtain ⟨notText, notMark⟩ := NodeKind.ne_of_mem_parts inside
  exact apart.lookup_write (.keyword (NodeKind.mem_keywords.mpr (.inr (.inr inside)))) notText notMark

theorem Apart.lookup_type (apart : annotations.Apart kind) :
    (annotations.write members).lookup "type" = members.lookup "type" :=
  apart.lookup_part (by cases kind <;> simp [NodeKind.parts])

theorem Apart.lookup_reference (apart : annotations.Apart kind) (own : Own kind members) :
    (annotations.write members).lookup "$ref" = none := by
  rw [apart.lookup_write .reference (by decide) (by decide)]
  exact own.lookup_eq_none (by cases kind <;> simp [NodeKind.parts, preserveKey])

/-- Annotations are read back from among the members that they were written over. -/
theorem Apart.ofMembers_write (apart : annotations.Apart kind) (own : Own kind members) :
    ofMembers kind (annotations.write members) = annotations := by
  have written := Annotations.lookup_write apart.ascending members
  have undescribed : members.lookup "description" = none :=
    own.lookup_eq_none fun inside => (NodeKind.ne_of_mem_parts inside).1 rfl
  have unmarked : members.lookup "nullable" = none :=
    own.lookup_eq_none fun inside => (NodeKind.ne_of_mem_parts inside).2 rfl
  have description : (annotations.write members).lookup "description" = annotations.description.map Json.string := by
    have unclaimed := apart.unclaimed "description" (.keyword (NodeKind.mem_keywords.mpr (.inl rfl)))
    simp [written, unclaimed, undescribed]
  have nullable : (annotations.write members).lookup "nullable" =
      if annotations.nullable then some (.bool true) else none := by
    have unclaimed := apart.unclaimed "nullable" (.keyword (NodeKind.mem_keywords.mpr (.inr (.inl rfl))))
    simp [written, unclaimed, unmarked]
  have extra : (annotations.write members).filter (fun member => !kind.keywords.contains member.1) =
      annotations.extra := by
    refine Table.eq_of_lookup_eq (Table.ascending_filter _ (annotations.ascending_write own.ascending))
      apart.ascending fun key => ?_
    rw [Table.lookup_filter (fun key => !kind.keywords.contains key) key]
    by_cases inside : key ∈ kind.keywords
    · rw [apart.unclaimed key (.keyword inside)]
      simp [inside]
    · have outside := inside
      simp only [NodeKind.mem_keywords, not_or] at outside
      simp [inside, written, own.lookup_eq_none outside.2.2, outside.1, outside.2.1]
  obtain ⟨text, mark, others⟩ := annotations
  simp only [ofMembers, description, nullable, extra]
  cases text <;> cases mark <;> rfl

end Annotations

end ResourceKinds
