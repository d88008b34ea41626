import ResourceKinds.Proofs.Schema.Annotations
import ResourceKinds.Proofs.Result

namespace ResourceKinds

namespace SchemaNode

section Reading

variable {path : String} {members : Fields Json}

theorem readProperties_eq (path : String) (members : Fields Json) :
    readProperties path members = match members.lookup "properties" with
      | none => .ok []
      | some (.object properties) => readEach (path ++ "/properties/") properties
      | some _ => .error (flawed path .propertiesNotObject) := by
  induction members with
  | nil => rfl
  | cons head rest ih =>
    obtain ⟨key, value⟩ := head
    by_cases here : key = "properties"
    · cases value <;> simp [readProperties, Table.lookup, here]
    · have passed : readProperties path ((key, value) :: rest) = readProperties path rest := by
        cases value <;> simp only [readProperties, here, if_false]
      rw [passed, ih, Table.lookup, if_neg here]

theorem readValues_eq (path : String) (members : Fields Json) :
    readValues path members = match members.lookup "additionalProperties" with
      | none => .ok .none
      | some (.bool false) => .ok .none
      | some (.bool true) => .ok .unconstrained
      | some (.object shape) => if isUnconstrained shape then .ok .unconstrained
          else (readAt (path ++ "/additionalProperties") (.object shape)).map .shaped
      | some other => (readAt (path ++ "/additionalProperties") other).map .shaped := by
  induction members with
  | nil => rfl
  | cons head rest ih =>
    obtain ⟨key, value⟩ := head
    by_cases here : key = "additionalProperties"
    · cases value with
      | bool b => cases b <;> simp [readValues, Table.lookup, here]
      | _ => simp [readValues, Table.lookup, here]
    · have passed : readValues path ((key, value) :: rest) = readValues path rest := by
        cases value with
        | bool b => cases b <;> simp only [readValues, here, if_false]
        | _ => simp only [readValues, here, if_false]
      rw [passed, ih, Table.lookup, if_neg here]

theorem readItems_eq (path : String) (members : Fields Json) :
    readItems path members = match members.lookup "items" with
      | none => .ok none
      | some item => (readAt (path ++ "/items") item).map some := by
  induction members with
  | nil => rfl
  | cons head rest ih =>
    obtain ⟨key, value⟩ := head
    by_cases here : key = "items"
    · simp [readItems, Table.lookup, here]
    · simp [readItems, Table.lookup, here, ih]

/-- Each node of a list was read from the document of its name. -/
theorem derived_of_readEach {under : String} {documents : List (String × Json)} {nodes : List (String × SchemaNode)}
    (read : readEach under documents = .ok nodes) :
    Table.Derived (fun name document node => readAt (under ++ name) document = .ok node) documents nodes := by
  induction documents generalizing nodes with
  | nil =>
    obtain rfl := Except.ok.inj read
    exact .nil
  | cons head rest ih =>
    obtain ⟨name, document⟩ := head
    obtain ⟨node, first, read⟩ := bind_eq_ok.mp read
    obtain ⟨others, later, read⟩ := bind_eq_ok.mp read
    obtain rfl := Except.ok.inj read
    exact .cons first (ih later)

theorem readAt_reference {target : String} (found : members.lookup "$ref" = some (.string target)) :
    readAt path (.object members) = .ok (.reference (componentName target)) := by
  simp only [readAt, found]

theorem readAt_of_kind {kind : NodeKind} (noReference : members.lookup "$ref" = none)
    (ofKind : NodeKind.ofMembers members = .ok kind) :
    readAt path (.object members) = match kind with
      | .object => do
        let properties ← readProperties path members
        let required ← (readRequired members).mapError (flawed path)
        let values ← readValues path members
        return .object properties values ⟨required, readPreserve members, Annotations.ofMembers kind members⟩
      | .array => return .array (← readItems path members) (Annotations.ofMembers kind members)
      | .scalar type => return .scalar type (Annotations.ofMembers kind members) := by
  simp only [readAt, noReference, ofKind]
  cases kind <;> rfl

/-- The ways in which a document can be a node's. -/
theorem readAt_eq_ok {document : Json} {node : SchemaNode} (read : readAt path document = .ok node) :
    document = .bool true ∧ node = .scalar none .empty ∨ ∃ members, document = .object members ∧
      ((∃ name, node = .reference name) ∨ Table.lookup members "$ref" = none ∧
        ((NodeKind.ofMembers members = .ok .object ∧ ∃ properties values required,
            readProperties path members = .ok properties ∧ readValues path members = .ok values ∧
            node = .object properties values
              ⟨required, readPreserve members, Annotations.ofMembers .object members⟩) ∨
          (NodeKind.ofMembers members = .ok .array ∧ ∃ items, readItems path members = .ok items ∧
            node = .array items (Annotations.ofMembers .array members)) ∨
          ∃ type, NodeKind.ofMembers members = .ok (.scalar type) ∧
            node = .scalar type (Annotations.ofMembers (.scalar type) members))) := by
  cases document with
  | bool b =>
    cases b with
    | true => exact .inl ⟨rfl, (Except.ok.inj read).symm⟩
    | false => cases read
  | object members =>
    refine .inr ⟨members, rfl, ?_⟩
    cases found : Table.lookup members "$ref" with
    | some target =>
      simp only [readAt, found] at read
      cases target with
      | string target => exact .inl ⟨_, (Except.ok.inj read).symm⟩
      | _ => cases read
    | none =>
      refine .inr ⟨rfl, ?_⟩
      cases ofKind : NodeKind.ofMembers members with
      | error flaw =>
        simp only [readAt, found, ofKind] at read
        cases read
      | ok kind =>
        rw [readAt_of_kind found ofKind] at read
        cases kind with
        | object =>
          obtain ⟨properties, inProperties, read⟩ := bind_eq_ok.mp read
          obtain ⟨required, _, read⟩ := bind_eq_ok.mp read
          obtain ⟨values, inValues, read⟩ := bind_eq_ok.mp read
          exact .inl ⟨rfl, properties, values, required, inProperties, inValues, (Except.ok.inj read).symm⟩
        | array =>
          obtain ⟨items, inItems, read⟩ := bind_eq_ok.mp read
          exact .inr (.inl ⟨rfl, items, inItems, (Except.ok.inj read).symm⟩)
        | scalar type => exact .inr (.inr ⟨type, rfl, (Except.ok.inj read).symm⟩)
  | _ => cases read

end Reading

/-- The properties and the annotations of the node ascend, and the annotations keep nothing that the
node is read from. -/
inductive Tidy : SchemaNode → Prop
  | object {properties values facets} (ascending : Table.Ascending properties)
      (inProperties : ∀ member ∈ properties, Tidy member.2) (inValues : ∀ shape, values = .shaped shape → Tidy shape)
      (apart : facets.annotations.Apart .object) : Tidy (.object properties values facets)
  | array {items annotations} (inItems : ∀ item, items = some item → Tidy item) (apart : annotations.Apart .array) :
      Tidy (.array items annotations)
  | scalar {kind annotations} (apart : annotations.Apart (.scalar kind)) : Tidy (.scalar kind annotations)
  | reference {name} : Tidy (.reference name)

/-- No map shape admits any value. -/
inductive Definite : SchemaNode → Prop
  | object {properties values facets} (inProperties : ∀ member ∈ properties, Definite member.2)
      (inValues : ∀ shape, values = .shaped shape → Definite shape)
      (typed : ∀ shape, values = .shaped shape → shape.isUntyped = false) : Definite (.object properties values facets)
  | array {items annotations} (inItems : ∀ item, items = some item → Definite item) :
      Definite (.array items annotations)
  | scalar {kind annotations} : Definite (.scalar kind annotations)
  | reference {name} : Definite (.reference name)

/-- What is read from a document with a type, a shape or a reference is not a scalar of any type. -/
theorem isUntyped_of_constrained {path : String} {members : Fields Json} {node : SchemaNode}
    (constrained : isUnconstrained members = false) (read : readAt path (.object members) = .ok node) :
    node.isUntyped = false := by
  obtain ⟨impossible, _⟩ | ⟨others, same, ⟨name, rfl⟩ | ⟨noReference, kinds⟩⟩ := readAt_eq_ok read
  · cases impossible
  · rfl
  obtain rfl := Json.object.inj same
  obtain ⟨_, properties, values, required, _, _, rfl⟩ | ⟨_, items, _, rfl⟩ | ⟨type, ofKind, rfl⟩ := kinds
  · rfl
  · rfl
  cases type with
  | some type => rfl
  | none =>
    have noType : members.lookup "type" = none := NodeKind.lookup_type ofKind
    have noShape (key : String) (inside : key ∈ ["properties", "additionalProperties", preserveKey, "items"]) :=
      NodeKind.lookup_shape ofKind inside
    simp [isUnconstrained, Table.contains, noType, noReference, noShape "properties", noShape "items",
      noShape "additionalProperties"] at constrained

/-- What is true of all nodes read from the parts of an object. -/
def InParts (members : Fields Json) (holds : SchemaNode → Prop) : Prop :=
  ∀ path part node, part.WellFormed → sizeOf part < sizeOf (Json.object members) →
    readAt path part = .ok node → holds node

section Parts

variable {path : String} {members : Fields Json} {holds : SchemaNode → Prop}

theorem sizeOf_lt_of_lookup {key : String} {part : Json} (found : members.lookup key = some part) :
    sizeOf part < sizeOf (Json.object members) := by
  have smaller := List.sizeOf_lt_of_mem (Table.mem_of_lookup found)
  simp only [Prod.mk.sizeOf_spec, Json.object.sizeOf_spec] at smaller ⊢
  omega

theorem InParts.properties (inParts : InParts members holds) (wellFormed : ∀ member ∈ members, member.2.WellFormed)
    {properties : List (String × SchemaNode)} (read : readProperties path members = .ok properties) :
    Table.Ascending properties ∧ ∀ member ∈ properties, holds member.2 := by
  rw [readProperties_eq] at read
  split at read
  · obtain rfl := Except.ok.inj read
    exact ⟨by simp [Table.Ascending, Table.keys], nofun⟩
  · rename_i documents found
    obtain ⟨ascending, each⟩ := wellFormed _ (Table.mem_of_lookup found)
    have derived := derived_of_readEach read
    refine ⟨derived.ascending ascending, fun member inside => ?_⟩
    obtain ⟨document, among, read⟩ := derived.origin inside
    have inside := List.sizeOf_lt_of_mem among
    have below := sizeOf_lt_of_lookup found
    simp only [Prod.mk.sizeOf_spec, Json.object.sizeOf_spec] at inside below
    refine inParts _ document _ (Json.wellFormedMembers_iff.mp each _ among) ?_ read
    simp only [Json.object.sizeOf_spec]
    omega
  · cases read

theorem InParts.values (inParts : InParts members holds) (wellFormed : ∀ member ∈ members, member.2.WellFormed)
    {values : MapValues SchemaNode} (read : readValues path members = .ok values) {shape : SchemaNode}
    (shaped : values = .shaped shape) : holds shape ∧ shape.isUntyped = false := by
  subst shaped
  rw [readValues_eq] at read
  split at read
  · cases read
  · cases read
  · cases read
  · rename_i document found
    split at read
    · cases read
    rename_i constrained
    obtain ⟨node, inside, same⟩ := map_eq_ok.mp read
    obtain rfl : node = shape := MapValues.shaped.inj same
    refine ⟨inParts _ _ _ (wellFormed _ (Table.mem_of_lookup found)) (sizeOf_lt_of_lookup found) inside, ?_⟩
    exact isUntyped_of_constrained (by simpa using constrained) inside
  · rename_i document notFalse notTrue notObject found
    obtain ⟨node, inside, same⟩ := map_eq_ok.mp read
    obtain ⟨rfl, _⟩ | ⟨documents, rfl, _⟩ := readAt_eq_ok inside
    · exact absurd rfl notTrue
    · exact absurd rfl (notObject documents)

theorem InParts.items (inParts : InParts members holds) (wellFormed : ∀ member ∈ members, member.2.WellFormed)
    {items : Option SchemaNode} (read : readItems path members = .ok items) {item : SchemaNode}
    (present : items = some item) : holds item := by
  subst present
  rw [readItems_eq] at read
  split at read
  · cases read
  · rename_i document found
    obtain ⟨node, inside, same⟩ := map_eq_ok.mp read
    obtain rfl : node = item := Option.some.inj same
    exact inParts _ _ _ (wellFormed _ (Table.mem_of_lookup found)) (sizeOf_lt_of_lookup found) inside

end Parts

/-- Whatever is read is tidy and definite. -/
theorem tidy_of_readAt {path : String} {document : Json} {node : SchemaNode} (wellFormed : document.WellFormed)
    (read : readAt path document = .ok node) : node.Tidy ∧ node.Definite := by
  obtain ⟨_, rfl⟩ | ⟨members, whole, ⟨name, rfl⟩ | ⟨noReference, kinds⟩⟩ := readAt_eq_ok read
  · exact ⟨.scalar (Annotations.apart_empty _), .scalar⟩
  · exact ⟨.reference, .reference⟩
  obtain ⟨ascending, wellFormed⟩ : (Json.object members).WellFormed := whole ▸ wellFormed
  have each := Json.wellFormedMembers_iff.mp wellFormed
  have apart {kind : NodeKind} (ofKind : NodeKind.ofMembers members = .ok kind) :=
    Annotations.apart_ofMembers ascending each noReference ofKind
  have inParts : InParts members fun node => node.Tidy ∧ node.Definite :=
    fun path part node wellFormed _smaller read => tidy_of_readAt wellFormed read
  obtain ⟨ofKind, properties, values, required, inProperties, inValues, rfl⟩ | ⟨ofKind, items, inItems, rfl⟩ |
    ⟨type, ofKind, rfl⟩ := kinds
  · obtain ⟨sorted, parts⟩ := inParts.properties each inProperties
    have shapes (shape : SchemaNode) (shaped : values = .shaped shape) := inParts.values each inValues shaped
    exact ⟨.object sorted (fun member inside => (parts member inside).1) (fun shape same => (shapes shape same).1.1)
        (apart ofKind),
      .object (fun member inside => (parts member inside).2) (fun shape same => (shapes shape same).1.2)
        (fun shape same => (shapes shape same).2)⟩
  · have parts (item : SchemaNode) (present : items = some item) := inParts.items each inItems present
    exact ⟨.array (fun item same => (parts item same).1) (apart ofKind), .array fun item same => (parts item same).2⟩
  · exact ⟨.scalar (apart ofKind), .scalar⟩
termination_by sizeOf document
decreasing_by rw [whole]; exact _smaller

end SchemaNode

end ResourceKinds
