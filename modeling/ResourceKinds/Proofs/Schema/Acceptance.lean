import ResourceKinds.Proofs.Schema.Places
import ResourceKinds.Proofs.Schema.Validity

namespace ResourceKinds

/-- The step as it stands in the path of an error. -/
def SchemaStep.pathText : SchemaStep → String
  | .property name => "/properties/" ++ name
  | .value => "/additionalProperties"
  | .item => "/items"

/-- The place as a path that begins with the given one. -/
def SchemaPlace.pathFrom (start : String) (place : SchemaPlace) : String :=
  place.foldl (fun path step => path ++ step.pathText) start

namespace SchemaDocument

variable {members : Fields Json}

section Positions

def propertyParts (members : Fields Json) : List (SchemaStep × Json) :=
  match members.lookup "properties" with
  | some (.object properties) => properties.map fun property => (.property property.1, property.2)
  | _ => []

def valueParts (members : Fields Json) : List (SchemaStep × Json) :=
  match members.lookup "additionalProperties" with
  | some value => if Unshaped value then [] else [(.value, value)]
  | none => []

def itemParts (members : Fields Json) : List (SchemaStep × Json) :=
  match members.lookup "items" with
  | some item => [(.item, item)]
  | none => []

/-- The schemas directly below a document, in the order in which they are read. The map shape of an object comes
last, once the list of required names has been looked at. -/
def parts : Json → List (SchemaStep × Json)
  | .object members =>
    if Table.contains members "$ref" then []
    else if DeclaresObject members then
      propertyParts members ++ if HasProperties members ∧ HasRequired members then valueParts members else []
    else if DeclaresArray members then itemParts members
    else []
  | _ => []

theorem mem_propertyParts {part : SchemaStep × Json} : part ∈ propertyParts members ↔
    ∃ properties, members.lookup "properties" = some (.object properties) ∧
      ∃ property ∈ properties, part = (.property property.1, property.2) := by
  rw [propertyParts]
  split
  · rename_i properties found
    simp [found, eq_comm]
  · rename_i noObject
    simpa using fun properties found => absurd found (noObject properties)

theorem mem_valueParts {part : SchemaStep × Json} : part ∈ valueParts members ↔
    ∃ value, members.lookup "additionalProperties" = some value ∧ ¬ Unshaped value ∧ part = (.value, value) := by
  rw [valueParts]
  split
  · split <;> simp_all
  · rename_i absent
    simp [absent]

theorem mem_itemParts {part : SchemaStep × Json} :
    part ∈ itemParts members ↔ ∃ item, members.lookup "items" = some item ∧ part = (.item, item) := by
  rw [itemParts]
  split <;> simp_all

/-- The schemas below a document, whether or not reading gets to them. -/
def IsPart (members : Fields Json) (part : SchemaStep × Json) : Prop :=
  part ∈ propertyParts members ∨ part ∈ valueParts members ∨ part ∈ itemParts members

theorem isPart_of_mem_parts {part : SchemaStep × Json} (inside : part ∈ parts (.object members)) :
    IsPart members part := by
  rw [parts] at inside
  split at inside
  · cases inside
  split at inside
  · rcases List.mem_append.mp inside with among | among
    · exact .inl among
    · split at among
      · exact .inr (.inl among)
      · cases among
  split at inside
  · exact .inr (.inr inside)
  · cases inside

theorem IsPart.sizeOf_lt {part : SchemaStep × Json} (isPart : IsPart members part) :
    sizeOf part.2 < sizeOf (Json.object members) := by
  obtain among | among | among := isPart
  · obtain ⟨properties, found, ⟨name, property⟩, member, rfl⟩ := mem_propertyParts.mp among
    have smaller := List.sizeOf_lt_of_mem member
    have below := SchemaNode.sizeOf_lt_of_lookup found
    simp only [Prod.mk.sizeOf_spec, Json.object.sizeOf_spec] at smaller below ⊢
    omega
  · obtain ⟨value, found, _, rfl⟩ := mem_valueParts.mp among
    exact SchemaNode.sizeOf_lt_of_lookup found
  · obtain ⟨item, found, rfl⟩ := mem_itemParts.mp among
    exact SchemaNode.sizeOf_lt_of_lookup found

theorem sizeOf_lt_of_mem_parts {document : Json} {part : SchemaStep × Json} (inside : part ∈ parts document) :
    sizeOf part.2 < sizeOf document := by
  cases document with
  | object members => exact (isPart_of_mem_parts inside).sizeOf_lt
  | _ => cases inside

/-- The positions that reading reaches, in the order in which they are done with: those below a document before the
document itself. -/
def positions (document : Json) : List (SchemaPlace × Json) :=
  ((parts document).attach.flatMap fun part =>
    (positions part.1.2).map fun position => (part.1.1 :: position.1, position.2)) ++ [([], document)]
termination_by sizeOf document
decreasing_by exact sizeOf_lt_of_mem_parts part.2

/-- The positions of a part as positions of the whole. -/
def below (part : SchemaStep × Json) : List (SchemaPlace × Json) :=
  (positions part.2).map fun position => (part.1 :: position.1, position.2)

theorem positions_eq (document : Json) : positions document = (parts document).flatMap below ++ [([], document)] := by
  rw [positions]
  congr 1
  rw [List.flatMap_subtype (g := below) fun part inside => rfl]
  rw [List.unattach_attach]

end Positions

/-- A document read at a path: either everything at these positions is valid, or the error is at the first of them
where it is not and says what is wrong there. -/
inductive Judged (path : String) (positions : List (SchemaPlace × Json)) {α : Type} : Except SchemaError α → Prop
  | accepted {value} (valid : ∀ position ∈ positions, Valid position.2) : Judged path positions (.ok value)
  | refused {before place part after flaw} (split : positions = before ++ (place, part) :: after)
      (valid : ∀ earlier ∈ before, Valid earlier.2) (flawed : Flaw part flaw) :
      Judged path positions (.error (.invalidFormat (SchemaPlace.pathFrom path place) flaw))

namespace Judged

variable {path : String} {first second : List (SchemaPlace × Json)} {α β : Type}

theorem bind {result : Except SchemaError α} {next : α → Except SchemaError β} (judged : Judged path first result)
    (later : ∀ value, result = .ok value → (∀ position ∈ first, Valid position.2) → Judged path second (next value)) :
    Judged path (first ++ second) (result >>= next) := by
  cases judged with
  | @accepted value valid =>
    have judged := later value rfl valid
    change Judged path (first ++ second) (next value)
    generalize next value = result at judged
    cases judged with
    | accepted others => exact .accepted fun position inside => (List.mem_append.mp inside).elim (valid _) (others _)
    | @refused before place part after flaw split others flawed =>
      have whole : first ++ second = (first ++ before) ++ (place, part) :: after := by rw [split, List.append_assoc]
      exact .refused whole (fun position inside => (List.mem_append.mp inside).elim (valid _) (others _)) flawed
  | refused split valid flawed => exact .refused (by rw [split, List.append_assoc, List.cons_append]) valid flawed

theorem map {result : Except SchemaError α} (judged : Judged path first result) (change : α → β) :
    Judged path first (result.map change) := by
  cases judged with
  | accepted valid => exact .accepted valid
  | refused split valid flawed => exact .refused split valid flawed

/-- What is said of a part holds of the whole with the step to the part in front. -/
theorem below (part : SchemaStep × Json) {result : Except SchemaError α}
    (judged : Judged (path ++ part.1.pathText) (positions part.2) result) :
    Judged path (SchemaDocument.below part) result := by
  cases judged with
  | accepted valid => exact .accepted (List.forall_mem_map.mpr valid)
  | @refused before place inner after flaw split valid flawed =>
    have whole : SchemaDocument.below part = (before.map fun position => (part.1 :: position.1, position.2)) ++
        (part.1 :: place, inner) :: after.map fun position => (part.1 :: position.1, position.2) := by
      rw [SchemaDocument.below, split, List.map_append, List.map_cons]
    exact .refused whole (List.forall_mem_map.mpr valid) flawed

end Judged

theorem judged_readEach {path : String} {documents : List (String × Json)}
    (each : ∀ document ∈ documents, ∀ path, Judged path (positions document.2) (SchemaNode.readAt path document.2)) :
    Judged path ((documents.map fun document => (SchemaStep.property document.1, document.2)).flatMap below)
      (SchemaNode.readEach (path ++ "/properties/") documents) := by
  induction documents with
  | nil => exact .accepted nofun
  | cons head rest ih =>
    obtain ⟨name, document⟩ := head
    obtain ⟨first, others⟩ := List.forall_mem_cons.mp each
    have here := first (path ++ "/properties/" ++ name)
    rw [String.append_assoc] at here
    rw [List.map_cons, List.flatMap_cons, SchemaNode.readEach, String.append_assoc]
    refine (Judged.below (.property name, document) here).bind fun node _ _ => ?_
    exact (ih others).map fun nodes => (name, node) :: nodes

theorem isUnconstrained_iff {shape : Fields Json} : isUnconstrained shape = true ↔ Unshaped (.object shape) := by
  simp [isUnconstrained, Unshaped, shapeKeys]

/-- The map shape is read unless it says no more than whether there may be values. -/
theorem readValues_eq (path : String) {value : Json} (found : members.lookup "additionalProperties" = some value) :
    (Unshaped value → ∃ values, SchemaNode.readValues path members = .ok values) ∧
      (¬ Unshaped value → SchemaNode.readValues path members =
        (SchemaNode.readAt (path ++ "/additionalProperties") value).map .shaped) := by
  rw [SchemaNode.readValues_eq, found]
  cases value with
  | bool b =>
    refine ⟨fun _ => ?_, fun shaped => absurd trivial shaped⟩
    cases b
    · exact ⟨_, rfl⟩
    · exact ⟨_, rfl⟩
  | object shape =>
    simp only [← isUnconstrained_iff]
    cases isUnconstrained shape with
    | true => exact ⟨fun _ => ⟨_, rfl⟩, fun shaped => absurd rfl shaped⟩
    | false => exact ⟨nofun, fun _ => rfl⟩
  | _ => exact ⟨nofun, fun _ => rfl⟩

theorem judged_readValues {path : String}
    (each : ∀ part ∈ valueParts members, ∀ path, Judged path (positions part.2) (SchemaNode.readAt path part.2)) :
    Judged path ((valueParts members).flatMap below) (SchemaNode.readValues path members) := by
  unfold valueParts at each ⊢
  cases found : members.lookup "additionalProperties" with
  | none =>
    rw [SchemaNode.readValues_eq, found]
    exact .accepted nofun
  | some value =>
    obtain ⟨unread, shaped⟩ := readValues_eq path found
    simp only [found] at each ⊢
    by_cases unshaped : Unshaped value
    · obtain ⟨values, read⟩ := unread unshaped
      rw [if_pos unshaped, read]
      exact .accepted nofun
    · rw [if_neg unshaped] at each ⊢
      rw [shaped unshaped, List.flatMap_singleton]
      exact (Judged.below (.value, value) (each _ (List.mem_singleton_self _) _)).map _

theorem judged_readItems {path : String}
    (each : ∀ part ∈ itemParts members, ∀ path, Judged path (positions part.2) (SchemaNode.readAt path part.2)) :
    Judged path ((itemParts members).flatMap below) (SchemaNode.readItems path members) := by
  unfold itemParts at each ⊢
  rw [SchemaNode.readItems_eq]
  cases found : members.lookup "items" with
  | none => exact .accepted nofun
  | some item =>
    simp only [found] at each ⊢
    rw [List.flatMap_singleton]
    exact (Judged.below (.item, item) (each _ (List.mem_singleton_self _) _)).map _

theorem readRequired_judges (noReference : members.lookup "$ref" = none) (declared : DeclaresObject members)
    (properties : HasProperties members) :
    (HasRequired members ∧ ∃ names, readRequired members = .ok names) ∨
      ¬ HasRequired members ∧ ∃ flaw, readRequired members = .error flaw ∧ Flaw (.object members) flaw := by
  unfold readRequired HasRequired
  split
  · rename_i absent
    exact .inl ⟨by simp [absent], _, rfl⟩
  · rename_i items found
    split
    · rename_i names texts
      refine .inl ⟨?_, _, rfl⟩
      simpa [found, Json.asArray?] using isSome_mapM_iff.mp (by simp [texts])
    · rename_i noTexts
      have notAll : ¬ ∀ item ∈ items, item.asString?.isSome = true := by
        rw [← isSome_mapM_iff, noTexts]
        exact Bool.false_ne_true
      refine .inr ⟨by simpa [found, Json.asArray?] using notAll, _, rfl, ?_⟩
      exact .requiredNotStrings noReference declared properties found (by simpa using notAll)
  · rename_i value noItems found
    have noArray : value.asArray? = none := by cases value <;> simp_all [Json.asArray?]
    exact .inr ⟨by simp [found, noArray], _, rfl, .requiredNotArray noReference declared properties found noArray⟩

theorem readProperties_judges {path : String} (noReference : members.lookup "$ref" = none)
    (declared : DeclaresObject members)
    (each : ∀ part ∈ propertyParts members, ∀ path, Judged path (positions part.2) (SchemaNode.readAt path part.2)) :
    (HasProperties members ∧
        Judged path ((propertyParts members).flatMap below) (SchemaNode.readProperties path members)) ∨
      ¬ HasProperties members ∧ propertyParts members = [] ∧ ∃ flaw,
        SchemaNode.readProperties path members = .error (flawed path flaw) ∧ Flaw (.object members) flaw := by
  unfold propertyParts at each ⊢
  unfold HasProperties
  rw [SchemaNode.readProperties_eq]
  cases found : members.lookup "properties" with
  | none => exact .inl ⟨by simp, .accepted nofun⟩
  | some value =>
    cases value with
    | object properties =>
      simp only [found] at each
      exact .inl ⟨by simp [Json.asObject?], judged_readEach (List.forall_mem_map.mp each)⟩
    | _ => exact .inr ⟨by simp [Json.asObject?], rfl, _, rfl, .propertiesNotObject noReference declared found rfl⟩

theorem self_mem_positions (document : Json) : ([], document) ∈ positions document := by
  rw [positions_eq]
  exact List.mem_append_right _ (List.mem_singleton_self _)

theorem valid_of_below {parts : List (SchemaStep × Json)} (valid : ∀ position ∈ parts.flatMap below, Valid position.2)
    {part : SchemaStep × Json} (inside : part ∈ parts) : Valid part.2 :=
  valid ([part.1], part.2) (List.mem_flatMap.mpr ⟨part, inside, List.mem_map.mpr ⟨_, self_mem_positions part.2, rfl⟩⟩)

/-- A document that is wrong itself is refused, however much of what is below it has been read. -/
theorem Judged.self {path : String} {document : Json} {flaw : SchemaFlaw} {α : Type} (wrong : Flaw document flaw) :
    Judged path [([], document)] (.error (flawed path flaw) : Except SchemaError α) :=
  .refused (List.nil_append _).symm nofun wrong

/-- The keywords are read in the order of `parts`: the map shape counts only after the required names. -/
theorem judged_object {path : String} (noReference : members.lookup "$ref" = none)
    (ofKind : NodeKind.ofMembers members = .ok .object)
    (inParts : ∀ part, IsPart members part → ∀ path, Judged path (positions part.2) (SchemaNode.readAt path part.2)) :
    Judged path (positions (.object members)) (SchemaNode.readAt path (.object members)) := by
  have declared := ofMembers_declares ofKind
  have inProperties := fun part inside => inParts part (.inl inside)
  have inValues := fun part inside => inParts part (.inr (.inl inside))
  have below : parts (.object members) =
      propertyParts members ++ if HasProperties members ∧ HasRequired members then valueParts members else [] := by
    simp [parts, Table.contains, noReference, declared]
  rw [positions_eq, below, List.flatMap_append, List.append_assoc, SchemaNode.readAt_of_kind noReference ofKind]
  obtain ⟨properties, judged⟩ | ⟨noProperties, none, flaw, failed, wrong⟩ :=
    readProperties_judges noReference declared inProperties
  · refine judged.bind fun nodes _ validProperties => ?_
    obtain ⟨required, names, texts⟩ | ⟨noRequired, flaw, failed, wrong⟩ :=
      readRequired_judges noReference declared properties
    · rw [if_pos ⟨properties, required⟩, texts]
      refine (judged_readValues inValues).bind fun values _ validValues => .accepted ?_
      rw [List.forall_mem_singleton]
      refine .object noReference declared properties required (fun properties found member inside => ?_)
        fun value found shaped => ?_
      · exact valid_of_below validProperties (mem_propertyParts.mpr ⟨properties, found, member, inside, rfl⟩)
      · exact valid_of_below validValues (mem_valueParts.mpr ⟨value, found, shaped, rfl⟩)
    · rw [if_neg fun both => noRequired both.2, failed]
      exact Judged.self wrong
  · rw [if_neg fun both => noProperties both.1, none, failed]
    exact Judged.self wrong

theorem judged_array {path : String} (noReference : members.lookup "$ref" = none)
    (ofKind : NodeKind.ofMembers members = .ok .array)
    (inParts : ∀ part, IsPart members part → ∀ path, Judged path (positions part.2) (SchemaNode.readAt path part.2)) :
    Judged path (positions (.object members)) (SchemaNode.readAt path (.object members)) := by
  have inItems := fun part inside => inParts part (.inr (.inr inside))
  obtain ⟨declared, noObject⟩ := ofMembers_declares ofKind
  have below : parts (.object members) = itemParts members := by
    simp [parts, Table.contains, noReference, declared, noObject]
  rw [positions_eq, below, SchemaNode.readAt_of_kind noReference ofKind]
  refine (judged_readItems inItems).bind fun items _ validItems => .accepted ?_
  rw [List.forall_mem_singleton]
  refine .array noReference declared fun item found => ?_
  exact valid_of_below validItems (mem_itemParts.mpr ⟨item, found, rfl⟩)

/-- Documents without a part that is read are judged on their own. -/
theorem judged_alone {path : String} {document : Json} {result : Except SchemaError SchemaNode}
    (alone : parts document = []) (judged : Judged path [([], document)] result) :
    Judged path (positions document) result := by
  rw [positions_eq, alone]
  exact judged

theorem parts_of_undeclared (noObject : ¬ DeclaresObject members) (noArray : ¬ DeclaresArray members) :
    parts (.object members) = [] := by
  simp [parts, noObject, noArray]

/-- Every reading is judged by the positions that it reaches. -/
theorem judged_readAt (path : String) (document : Json) :
    Judged path (positions document) (SchemaNode.readAt path document) := by
  cases document with
  | bool b =>
    refine judged_alone rfl ?_
    cases b with
    | true => exact .accepted (List.forall_mem_singleton.mpr .anything)
    | false => exact Judged.self (.notASchema (by rintro ⟨⟩) rfl)
  | object members =>
    have inParts (part : SchemaStep × Json) (isPart : IsPart members part) (path : String) :
        Judged path (positions part.2) (SchemaNode.readAt path part.2) := judged_readAt path part.2
    cases found : Table.lookup members "$ref" with
    | some target =>
      refine judged_alone (by simp [parts, Table.contains, found]) ?_
      cases target with
      | string target =>
        rw [SchemaNode.readAt_reference found]
        exact .accepted (List.forall_mem_singleton.mpr (.reference found))
      | _ =>
        simp only [SchemaNode.readAt, found]
        exact Judged.self (.referenceNotString found rfl)
    | none =>
      cases ofKind : NodeKind.ofMembers members with
      | error flaw =>
        obtain ⟨wrong, untyped⟩ := ofMembers_flawed found ofKind
        refine judged_alone (parts_of_undeclared (mt DeclaresObject.typed untyped) (mt DeclaresArray.typed untyped)) ?_
        simp only [SchemaNode.readAt, found, ofKind]
        exact Judged.self wrong
      | ok kind =>
        cases kind with
        | object => exact judged_object found ofKind inParts
        | array => exact judged_array found ofKind inParts
        | scalar type =>
          obtain ⟨typed, noObject, noArray⟩ := ofMembers_declares ofKind
          refine judged_alone (parts_of_undeclared noObject noArray) ?_
          rw [SchemaNode.readAt_of_kind found ofKind]
          exact .accepted (List.forall_mem_singleton.mpr (.scalar found typed noObject noArray))
  | _ => exact judged_alone rfl (Judged.self (.notASchema (by rintro ⟨⟩) rfl))
termination_by sizeOf document
decreasing_by exact isPart.sizeOf_lt

/-- The first position that reading reaches where there is no valid document. -/
def FirstInvalid (document : Json) (place : SchemaPlace) (part : Json) : Prop :=
  ∃ before after, positions document = before ++ (place, part) :: after ∧
    (∀ earlier ∈ before, Valid earlier.2) ∧ ¬ Valid part

theorem FirstInvalid.unique {document part other : Json} {place another : SchemaPlace}
    (first : FirstInvalid document place part) (again : FirstInvalid document another other) :
    place = another ∧ part = other := by
  obtain ⟨before, after, split, valid, invalid⟩ := first
  obtain ⟨front, back, same, validToo, invalidToo⟩ := again
  obtain ⟨between, rfl, rest⟩ | ⟨between, rfl, rest⟩ := List.append_eq_append_iff.mp (split.symm.trans same)
  · cases between with
    | nil => exact Prod.mk.inj (List.cons.inj rest).1
    | cons position between =>
      obtain ⟨rfl, _⟩ := List.cons.inj rest
      exact absurd (validToo (place, part) (by simp)) invalid
  · cases between with
    | nil => exact (Prod.mk.inj (List.cons.inj rest).1).imp Eq.symm Eq.symm
    | cons position between =>
      obtain ⟨rfl, _⟩ := List.cons.inj rest
      exact absurd (valid (another, other) (by simp)) invalidToo

theorem Valid.of_mem_parts {document : Json} (valid : Valid document) {part : SchemaStep × Json}
    (inside : part ∈ parts document) : Valid part.2 := by
  cases valid with
  | anything => cases inside
  | reference found => simp [parts, Table.contains, found] at inside
  | object noReference declared properties required inProperties inValues =>
    simp only [parts, Table.contains, noReference, declared, properties, required, Option.isSome_none,
      Bool.false_eq_true, and_self, if_true, if_false] at inside
    rcases List.mem_append.mp inside with among | among
    · obtain ⟨properties, found, member, declared, rfl⟩ := mem_propertyParts.mp among
      exact inProperties properties found member declared
    · obtain ⟨value, found, shaped, rfl⟩ := mem_valueParts.mp among
      exact inValues value found shaped
  | array noReference declared inItems =>
    simp only [parts, Table.contains, noReference, declared, declared.not_object, Option.isSome_none,
      Bool.false_eq_true, if_true, if_false] at inside
    obtain ⟨item, found, rfl⟩ := mem_itemParts.mp inside
    exact inItems item found
  | scalar noReference typed noObject noArray =>
    rw [parts_of_undeclared noObject noArray] at inside
    cases inside

/-- Where a document is valid, so is every position that reading reaches in it. -/
theorem Valid.of_mem_positions {document : Json} (valid : Valid document) {position : SchemaPlace × Json}
    (inside : position ∈ positions document) : Valid position.2 := by
  rw [positions_eq, List.mem_append, List.mem_flatMap] at inside
  obtain ⟨part, among, inside⟩ | inside := inside
  · obtain ⟨inner, reached, rfl⟩ := List.mem_map.mp inside
    have validInner := (valid.of_mem_parts among).of_mem_positions reached
    exact validInner
  · obtain rfl := List.mem_singleton.mp inside
    exact valid
termination_by sizeOf document
decreasing_by exact sizeOf_lt_of_mem_parts among

end SchemaDocument

open SchemaDocument

/-- A document is read just if it is valid wherever reading gets to, which is so just if the whole is valid. Otherwise
the error is at the first position, in the order of reading, where the document is not valid, and says what is wrong
there. -/
theorem SchemaNode.read_outcome (document : Json) :
    ((∃ node, read document = .ok node) ↔ ∀ position ∈ positions document, Valid position.2) ∧
      ((∀ position ∈ positions document, Valid position.2) ↔ Valid document) ∧
      ∀ error, read document = .error error ↔ ∃ place part flaw, FirstInvalid document place part ∧ Flaw part flaw ∧
        error = .invalidFormat (SchemaPlace.pathFrom "#" place) flaw := by
  have judged := judged_readAt "#" document
  have whole : (∀ position ∈ positions document, Valid position.2) ↔ Valid document :=
    ⟨fun all => all _ (self_mem_positions document), fun valid _ => valid.of_mem_positions⟩
  rw [← read] at judged
  cases result : read document with
  | ok node =>
    rw [result] at judged
    cases judged with
    | accepted all =>
      refine ⟨⟨fun _ => all, fun _ => ⟨node, rfl⟩⟩, whole, fun error => ⟨?_, ?_⟩⟩
      · rintro ⟨⟩
      · rintro ⟨place, part, _, ⟨before, after, split, _, invalid⟩, _⟩
        exact absurd (all (place, part) (by simp [split])) invalid
  | error error =>
    rw [result] at judged
    cases judged with
    | @refused before place part after flaw split valid wrong =>
      have first : FirstInvalid document place part := ⟨before, after, split, valid, wrong.not_valid⟩
      refine ⟨⟨?_, fun all => ?_⟩, whole, fun error => ⟨?_, ?_⟩⟩
      · rintro ⟨_, ⟨⟩⟩
      · exact absurd (all (place, part) (by simp [split])) wrong.not_valid
      · rintro ⟨⟩
        exact ⟨place, part, flaw, first, wrong, rfl⟩
      · rintro ⟨another, other, reason, again, wrongToo, rfl⟩
        obtain ⟨rfl, rfl⟩ := first.unique again
        rw [wrong.unique wrongToo]

/-- With a flaw in a property, in the list of required names and in the map shape, reading stops at the property. -/
example : SchemaNode.read (.object [("additionalProperties", .null),
    ("properties", .object [("size", .object [("type", .string "text")])]), ("required", .null)]) =
      .error (.invalidFormat "#/properties/size" (.unknownType "text")) := rfl

end ResourceKinds
