import ResourceKinds.Schema.Reader

namespace ResourceKinds

namespace SchemaDocument

/-- The names that a type may have. -/
def typeNames : List String := ["object", "array", "string", "integer", "number", "boolean"]

/-- The keywords that make an object of a document without a type. -/
def objectKeys : List String := ["properties", "additionalProperties", preserveKey]

/-- The keywords without which a document constrains neither the type nor the shape of a value. -/
def shapeKeys : List String := ["type", "properties", "items", "additionalProperties", "$ref"]

def DeclaresType (members : Fields Json) : Prop :=
  members.lookup "type" = none ∨ ∃ name ∈ typeNames, members.lookup "type" = some (.string name)

def DeclaresObject (members : Fields Json) : Prop :=
  members.lookup "type" = some (.string "object") ∨
    members.lookup "type" = none ∧ ∃ key ∈ objectKeys, members.contains key = true

def DeclaresArray (members : Fields Json) : Prop :=
  members.lookup "type" = some (.string "array") ∨
    members.lookup "type" = none ∧ members.contains "items" = true ∧ ∀ key ∈ objectKeys, members.contains key = false

instance (members : Fields Json) : Decidable (DeclaresObject members) := inferInstanceAs (Decidable (_ ∨ _ ∧ _))

instance (members : Fields Json) : Decidable (DeclaresArray members) := inferInstanceAs (Decidable (_ ∨ _ ∧ _ ∧ _))

/-- As the shape of map values this says no more than whether there may be any. -/
def Unshaped : Json → Prop
  | .bool _ => True
  | .object members => ∀ key ∈ shapeKeys, Table.contains members key = false
  | _ => False

instance : DecidablePred Unshaped
  | .bool _ => inferInstanceAs (Decidable True)
  | .object members => inferInstanceAs (Decidable (∀ key ∈ shapeKeys, Table.contains members key = false))
  | .null | .number _ | .string _ | .array _ => inferInstanceAs (Decidable False)

/-- The properties, if there are any, are given as an object. -/
def HasProperties (members : Fields Json) : Prop :=
  ∀ value ∈ members.lookup "properties", value.asObject?.isSome = true

/-- The required names, if there are any, are given as a list of strings. -/
def HasRequired (members : Fields Json) : Prop :=
  ∀ value ∈ members.lookup "required", ∃ items ∈ value.asArray?, ∀ item ∈ items, item.asString?.isSome = true

instance (members : Fields Json) : Decidable (HasProperties members) := inferInstanceAs (Decidable (∀ _ ∈ _, _))

instance (members : Fields Json) : Decidable (HasRequired members) := inferInstanceAs (Decidable (∀ _ ∈ _, _))

/-- The documents that are schemas. -/
inductive Valid : Json → Prop
  | anything : Valid (.bool true)
  /-- Nothing beside a reference is looked at. -/
  | reference {members target} (found : Table.lookup members "$ref" = some (.string target)) : Valid (.object members)
  | object {members} (noReference : Table.lookup members "$ref" = none) (declared : DeclaresObject members)
      (properties : HasProperties members) (required : HasRequired members)
      (inProperties : ∀ properties, Table.lookup members "properties" = some (.object properties) →
        ∀ member ∈ properties, Valid member.2)
      (inValues : ∀ value, Table.lookup members "additionalProperties" = some value → ¬ Unshaped value → Valid value) :
      Valid (.object members)
  | array {members} (noReference : Table.lookup members "$ref" = none) (declared : DeclaresArray members)
      (inItems : ∀ item, Table.lookup members "items" = some item → Valid item) : Valid (.object members)
  | scalar {members} (noReference : Table.lookup members "$ref" = none) (typed : DeclaresType members)
      (noObject : ¬ DeclaresObject members) (noArray : ¬ DeclaresArray members) : Valid (.object members)

/-- What is wrong with a document itself, whatever is below it. -/
inductive Flaw : Json → SchemaFlaw → Prop
  | notASchema {document} (notTrue : document ≠ .bool true) (noMembers : document.asObject? = none) :
      Flaw document (.notASchema document)
  | referenceNotString {members target} (found : Table.lookup members "$ref" = some target)
      (noText : target.asString? = none) : Flaw (.object members) .referenceNotString
  | unsupportedType {members type} (noReference : Table.lookup members "$ref" = none)
      (found : Table.lookup members "type" = some type) (noText : type.asString? = none) :
      Flaw (.object members) (.unsupportedType type)
  | unknownType {members name} (noReference : Table.lookup members "$ref" = none)
      (found : Table.lookup members "type" = some (.string name)) (unknown : name ∉ typeNames) :
      Flaw (.object members) (.unknownType name)
  | propertiesNotObject {members value} (noReference : Table.lookup members "$ref" = none)
      (declared : DeclaresObject members) (found : Table.lookup members "properties" = some value)
      (noMembers : value.asObject? = none) : Flaw (.object members) .propertiesNotObject
  | requiredNotArray {members value} (noReference : Table.lookup members "$ref" = none)
      (declared : DeclaresObject members) (properties : HasProperties members)
      (found : Table.lookup members "required" = some value) (noItems : value.asArray? = none) :
      Flaw (.object members) .requiredNotArray
  | requiredNotStrings {members items} (noReference : Table.lookup members "$ref" = none)
      (declared : DeclaresObject members) (properties : HasProperties members)
      (found : Table.lookup members "required" = some (.array items))
      (noText : ∃ item ∈ items, item.asString? = none) : Flaw (.object members) .requiredNotStrings

theorem mem_typeNames {name : String} :
    name ∈ typeNames ↔ name = "object" ∨ name = "array" ∨ (ScalarKind.ofName? name).isSome = true := by
  unfold ScalarKind.ofName?
  split <;> simp_all [typeNames]

/-- The kind of a document's node is the one that its members declare. -/
theorem ofMembers_declares {members : Fields Json} {kind : NodeKind} (ofKind : NodeKind.ofMembers members = .ok kind) :
    match kind with
    | .object => DeclaresObject members
    | .array => DeclaresArray members ∧ ¬ DeclaresObject members
    | .scalar _ => DeclaresType members ∧ ¬ DeclaresObject members ∧ ¬ DeclaresArray members := by
  unfold NodeKind.ofMembers at ofKind
  split at ofKind
  · rename_i found
    obtain rfl := Except.ok.inj ofKind
    exact .inl found
  · rename_i found
    obtain rfl := Except.ok.inj ofKind
    exact ⟨.inl found, by simp [DeclaresObject, found]⟩
  · rename_i name notObject notArray found
    split at ofKind
    · rename_i type named
      obtain rfl := Except.ok.inj ofKind
      have known : name ∈ typeNames := mem_typeNames.mpr (.inr (.inr (by simp [named])))
      refine ⟨.inr ⟨name, known, found⟩, ?_, ?_⟩
      · simpa [DeclaresObject, found] using notObject
      · simpa [DeclaresArray, found] using notArray
    · cases ofKind
  · cases ofKind
  · rename_i found
    split at ofKind
    · rename_i shaped
      obtain rfl := Except.ok.inj ofKind
      refine .inr ⟨found, ?_⟩
      simpa [objectKeys, or_assoc] using shaped
    · rename_i unshaped
      split at ofKind
      · rename_i items
        obtain rfl := Except.ok.inj ofKind
        refine ⟨.inr ⟨found, items, ?_⟩, ?_⟩
        · simpa [objectKeys, and_assoc] using unshaped
        · simpa [DeclaresObject, found, objectKeys, and_assoc] using unshaped
      · rename_i noItems
        obtain rfl := Except.ok.inj ofKind
        refine ⟨.inl found, ?_, ?_⟩
        · simpa [DeclaresObject, found, objectKeys, and_assoc] using unshaped
        · simp [DeclaresArray, found, noItems]

theorem not_declaresType {members : Fields Json} {type : Json} (found : members.lookup "type" = some type)
    (unknown : ∀ name ∈ typeNames, type ≠ .string name) : ¬ DeclaresType members := by
  rintro (untyped | ⟨name, known, named⟩)
  · simp [found] at untyped
  · exact unknown name known (Option.some.inj (found.symm.trans named))

/-- A document has no kind only for the type that it declares. -/
theorem ofMembers_flawed {members : Fields Json} {flaw : SchemaFlaw} (noReference : members.lookup "$ref" = none)
    (failed : NodeKind.ofMembers members = .error flaw) :
    Flaw (.object members) flaw ∧ ¬ DeclaresType members := by
  unfold NodeKind.ofMembers at failed
  split at failed
  · cases failed
  · cases failed
  · rename_i name notObject notArray found
    split at failed
    · cases failed
    · rename_i noScalar
      obtain rfl := Except.error.inj failed
      have unknown : name ∉ typeNames := by
        rw [mem_typeNames, noScalar]
        rintro (rfl | rfl | impossible)
        · exact notObject rfl
        · exact notArray rfl
        · cases impossible
      refine ⟨.unknownType noReference found unknown, not_declaresType found ?_⟩
      rintro _ known ⟨⟩
      exact unknown known
  · rename_i type notObject notArray notText found
    obtain rfl := Except.error.inj failed
    have noText : type.asString? = none := by cases type <;> simp_all [Json.asString?]
    refine ⟨.unsupportedType noReference found noText, not_declaresType found ?_⟩
    rintro name _ rfl
    cases noText
  · split at failed
    · cases failed
    split at failed <;> cases failed

theorem isSome_mapM_iff {items : List Json} :
    (items.mapM Json.asString?).isSome = true ↔ ∀ item ∈ items, item.asString?.isSome = true := by
  induction items with
  | nil => simp
  | cons item rest ih =>
    rw [List.mapM_cons, List.forall_mem_cons, ← ih]
    cases item.asString? <;> cases rest.mapM Json.asString? <;> simp

variable {members : Fields Json}

theorem DeclaresObject.typed (declared : DeclaresObject members) : DeclaresType members := by
  obtain named | ⟨untyped, _⟩ := declared
  · exact .inr ⟨"object", by simp [typeNames], named⟩
  · exact .inl untyped

theorem DeclaresArray.typed (declared : DeclaresArray members) : DeclaresType members := by
  obtain named | ⟨untyped, _⟩ := declared
  · exact .inr ⟨"array", by simp [typeNames], named⟩
  · exact .inl untyped

theorem DeclaresArray.not_object (declared : DeclaresArray members) : ¬ DeclaresObject members := by
  rintro (named | ⟨untyped, key, inside, present⟩) <;> obtain other | ⟨none, _, absent⟩ := declared
  · simp [named] at other
  · simp [named] at none
  · simp [untyped] at other
  · simp [absent key inside] at present

/-- What a valid document without a reference says about itself. -/
theorem Valid.keywords (valid : Valid (.object members)) (noReference : members.lookup "$ref" = none) :
    DeclaresType members ∧ (DeclaresObject members → HasProperties members ∧ HasRequired members) := by
  cases valid with
  | reference found => simp [noReference] at found
  | object _ declared properties required => exact ⟨declared.typed, fun _ => ⟨properties, required⟩⟩
  | array _ declared => exact ⟨declared.typed, fun object => absurd object declared.not_object⟩
  | scalar _ typed noObject => exact ⟨typed, fun object => absurd object noObject⟩

theorem Flaw.not_valid {document : Json} {flaw : SchemaFlaw} (flawed : Flaw document flaw) : ¬ Valid document := by
  intro valid
  cases flawed with
  | notASchema notTrue noMembers => cases valid <;> simp_all [Json.asObject?]
  | referenceNotString found noText =>
    cases valid with
    | reference again =>
      obtain rfl := Option.some.inj (found.symm.trans again)
      cases noText
    | object noReference | array noReference | scalar noReference => simp [found] at noReference
  | unsupportedType noReference found noText =>
    refine not_declaresType found (fun name _ => ?_) (valid.keywords noReference).1
    rintro rfl
    cases noText
  | unknownType noReference found unknown =>
    refine not_declaresType found (fun name known => ?_) (valid.keywords noReference).1
    rintro ⟨⟩
    exact unknown known
  | propertiesNotObject noReference declared found noMembers =>
    have given := ((valid.keywords noReference).2 declared).1 _ found
    simp [noMembers] at given
  | requiredNotArray noReference declared _ found noItems =>
    obtain ⟨items, listed, _⟩ := ((valid.keywords noReference).2 declared).2 _ found
    simp [noItems] at listed
  | requiredNotStrings noReference declared _ found noText =>
    obtain ⟨texts, listed, each⟩ := ((valid.keywords noReference).2 declared).2 _ found
    obtain rfl := Option.some.inj listed
    obtain ⟨item, inside, noText⟩ := noText
    simpa [noText] using each item inside

theorem DeclaresObject.eq_type {type : Json} (declared : DeclaresObject members)
    (found : members.lookup "type" = some type) : type = .string "object" := by
  obtain named | ⟨untyped, _⟩ := declared
  · exact Option.some.inj (found.symm.trans named)
  · simp [found] at untyped

theorem Flaw.unique {document : Json} {flaw other : SchemaFlaw} (flawed : Flaw document flaw)
    (again : Flaw document other) : flaw = other := by
  cases flawed <;> cases again <;>
    grind [→ DeclaresObject.eq_type, HasProperties, typeNames, Json.asString?, Json.asArray?, Json.asObject?]

end SchemaDocument

end ResourceKinds
