import ResourceKinds.Conversion.Converter
import ResourceKinds.Proofs.Json.Portable
import ResourceKinds.Proofs.Schema.Pruning
import ResourceKinds.Proofs.Texts

namespace ResourceKinds

namespace TypeMeta

theorem eq_string_of_bind {found : Option Json} {text : String} (read : found.bind Json.asString? = some text) :
    found = some (.string text) := by
  obtain ⟨value, rfl, same⟩ := Option.bind_eq_some_iff.mp read
  cases value with
  | string written => exact congrArg (fun text => some (Json.string text)) (Option.some.inj same)
  | _ => cases same

theorem apiVersion_of_group {type : TypeMeta} (grouped : type.group ≠ "") :
    type.apiVersion = type.group ++ String.singleton '/' ++ type.version := by
  rw [apiVersion, if_neg grouped]
  rfl

theorem exists_members {object : Json} {type : TypeMeta} (typed : ofObject object = .ok type) :
    ∃ members, object = .object members := by
  cases object with
  | object members => exact ⟨members, rfl⟩
  | _ => cases typed

/-- An object of a type in a group says so in its type members. -/
theorem get?_of_ofObject {object : Json} {type : TypeMeta} (typed : ofObject object = .ok type)
    (grouped : type.group ≠ "") :
    object.get? "apiVersion" = some (.string type.apiVersion) ∧ object.get? "kind" = some (.string type.kind) := by
  unfold ofObject at typed
  cases versioned : (object.get? "apiVersion").bind Json.asString? with
  | none => simp only [versioned] at typed; cases typed
  | some written =>
    cases named : (object.get? "kind").bind Json.asString? with
    | none => simp only [versioned, named] at typed; cases typed
    | some kind =>
      simp only [versioned, named] at typed
      cases cuts : Text.cutLast? '/' written with
      | none =>
        simp only [cuts] at typed
        obtain rfl := Except.ok.inj typed
        exact absurd rfl grouped
      | some parts =>
        simp only [cuts] at typed
        obtain rfl := Except.ok.inj typed
        rw [apiVersion_of_group grouped, ← Text.eq_append_of_cutLast? cuts]
        exact ⟨eq_string_of_bind versioned, eq_string_of_bind named⟩

theorem ofObject_of_get? {object : Json} {type : TypeMeta} (grouped : type.group ≠ "")
    (last : '/' ∉ type.version.toList)
    (versioned : object.get? "apiVersion" = some (.string type.apiVersion))
    (named : object.get? "kind" = some (.string type.kind)) : ofObject object = .ok type := by
  have cuts := Text.cutLast?_append type.group last
  rw [← apiVersion_of_group grouped] at cuts
  simp only [ofObject, versioned, named, Option.bind_some, Json.asString?, cuts]

end TypeMeta

namespace StructuralSchema

theorem admits_member {schema : StructuralSchema} {name : String} (isType : name ∈ typeMembers) :
    schema.admits [.member name] = true := by
  simp only [admits, StructuralNode.admitsBelow]
  split
  · rfl
  · simp [isType]

/-- Pruning leaves the names by which an object is found again. -/
theorem get?_prune_string (schema : StructuralSchema) {value : Json} {name text : String} (isType : name ∈ typeMembers)
    (there : value.get? name = some (.string text)) : (schema.prune value).get? name = some (.string text) := by
  cases value with
  | object members =>
    rw [prune_eq_retain, Json.retain, Json.get?, Json.lookup_retainMembers, admits_member isType, if_pos rfl]
    rw [Json.get?] at there
    rw [there]
    rfl
  | _ => cases there

end StructuralSchema

namespace Converter

theorem get?_restampObject (type : TypeMeta) (members : Fields Json) (name : String) :
    (restampObject type members).get? name =
      if name = "kind" then some (.string type.kind)
      else if name = "apiVersion" then some (.string type.apiVersion) else Table.lookup members name := by
  simp only [restampObject, Json.get?, Table.lookup_insert]

theorem restampObject_portable (type : TypeMeta) {members : Fields Json} (portable : (Json.object members).Portable) :
    (restampObject type members).Portable :=
  (portable.insert_string "apiVersion" type.apiVersion).insert_string "kind" type.kind

/-- Whoever keeps the type members may drop other fields before or after they are written. -/
theorem retain_restampObject {keep : Json.Path → Bool} (type : TypeMeta) {members : Fields Json}
    (ascending : Table.Ascending members) (version : keep [.member "apiVersion"] = true)
    (kind : keep [.member "kind"] = true) :
    (restampObject type members).retain keep = restampObject type (Json.retainMembers keep members) := by
  refine congrArg Json.object (Table.eq_of_lookup_eq ?_ ?_ fun name => ?_)
  · exact Json.ascending_retainMembers (Table.ascending_insert (Table.ascending_insert ascending))
  · exact Table.ascending_insert (Table.ascending_insert (Json.ascending_retainMembers ascending))
  · simp only [Json.lookup_retainMembers, Table.lookup_insert]
    by_cases isKind : name = "kind"
    · subst isKind
      simp [kind, Json.retain]
    · by_cases isVersion : name = "apiVersion"
      · subst isVersion
        simp [version, Json.retain]
      · simp [isKind, isVersion]

/-- The type members that an object already has make no difference to it, even if they were overwritten in between. -/
theorem restampObject_restampObject {type other : TypeMeta} {members : Fields Json}
    (ascending : Table.Ascending members)
    (versioned : Table.lookup members "apiVersion" = some (.string type.apiVersion))
    (named : Table.lookup members "kind" = some (.string type.kind)) :
    restampObject type ((members.insert "apiVersion" (.string other.apiVersion)).insert "kind" (.string other.kind)) =
      .object members := by
  have ascends {table : Fields Json} (ascending : Table.Ascending table) (type : TypeMeta) :
      Table.Ascending ((table.insert "apiVersion" (.string type.apiVersion)).insert "kind" (.string type.kind)) :=
    Table.ascending_insert (Table.ascending_insert ascending)
  refine congrArg Json.object (Table.eq_of_lookup_eq (ascends (ascends ascending other) type) ascending fun name => ?_)
  simp only [Table.lookup_insert]
  by_cases isKind : name = "kind"
  · simp [isKind, named]
  · by_cases isVersion : name = "apiVersion"
    · simp [isVersion, versioned]
    · simp [isKind, isVersion]

end Converter

end ResourceKinds
