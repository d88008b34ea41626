import ResourceKinds.Json.Outline
import ResourceKinds.Proofs.Json.Quoting
import ResourceKinds.Proofs.Tables

namespace ResourceKinds

namespace Json

/-- What may follow a value: the end of the text, or of what encloses the value, or a comma. -/
def Ends : List Char → Prop
  | [] => True
  | c :: _ => c = ',' ∨ c = ']' ∨ c = '\x7d'

/-- The text of the number reads as the number. -/
def LegibleNumber (number : Number) : Prop :=
  ∃ c rest, (numberText number).toList = c :: rest ∧ isBlank c = false ∧
    ∀ left place, Ends left → Scans (scanMark c (rest ++ left) place) (.scalar (.number number)) left

mutual

/-- Every number in the value reads back from its text. -/
def Legible : Json → Prop
  | .number n => LegibleNumber n
  | .array items => LegibleItems items
  | .object members => LegibleMembers members
  | _ => True

def LegibleItems : List Json → Prop
  | [] => True
  | item :: rest => item.Legible ∧ LegibleItems rest

def LegibleMembers : List (String × Json) → Prop
  | [] => True
  | (_, value) :: rest => value.Legible ∧ LegibleMembers rest

end

mutual

/-- The marks of the compact text. -/
def marks : Json → List Mark
  | .array items => .openList :: marksOfItems items ++ [.closeList]
  | .object members => .openObject :: marksOfMembers members ++ [.closeObject]
  | .string s => [.text s]
  | value => [.scalar value]

def marksOfItems : List Json → List Mark
  | [] => []
  | item :: rest => item.marks ++ (if rest.isEmpty then [] else [.comma]) ++ marksOfItems rest

def marksOfMembers : List (String × Json) → List Mark
  | [] => []
  | (name, value) :: rest =>
    .text name :: .colon :: value.marks ++ (if rest.isEmpty then [] else [.comma]) ++ marksOfMembers rest

end

/-- The text becomes tokens with these marks when it is followed by what is left. -/
def Spells (text : List Char) (marks : List Mark) (left : List Char) : Prop :=
  ∀ place seen, ∃ (read : List Token) (stop : Place), read.map Token.mark = marks ∧
    tokensFrom (text ++ left) place seen = tokensFrom left stop (read.reverse ++ seen)

theorem Spells.nil (left : List Char) : Spells [] [] left := fun place _ => ⟨[], place, rfl, rfl⟩

theorem Spells.after {first second left : List Char} {marks others : List Mark} (two : Spells second others left)
    (one : Spells first marks (second ++ left)) : Spells (first ++ second) (marks ++ others) left := by
  intro place seen
  obtain ⟨read, stop, marked, reads⟩ := one place seen
  obtain ⟨more, final, markedMore, readsMore⟩ := two stop (read.reverse ++ seen)
  refine ⟨read ++ more, final, by simp [marked, markedMore], ?_⟩
  rw [List.append_assoc, reads, readsMore]
  simp

theorem Spells.mark {c : Char} {rest left : List Char} {mark : Mark} (visible : isBlank c = false)
    (scans : ∀ place, Scans (scanMark c (rest ++ left) place) mark left) : Spells (c :: rest) [mark] left := by
  intro place seen
  obtain ⟨stop, shorter, scanned⟩ := scans place
  refine ⟨[⟨mark, place, stop⟩], stop, rfl, ?_⟩
  rw [List.cons_append, tokensFrom]
  simp only [visible, Bool.false_eq_true, if_false, scanned, List.reverse_singleton, List.singleton_append]

theorem Spells.alone {c : Char} {mark : Mark} (visible : isBlank c = false)
    (same : ∀ rest place, scanMark c rest place = .ok (mark, ⟨⟨rest, place.after c⟩, Nat.le_refl _⟩))
    (left : List Char) : Spells [c] [mark] left :=
  .mark visible fun place => ⟨place.after c, Nat.le_refl _, same left place⟩

theorem spells_quote (text : String) (left : List Char) : Spells (quote text).toList [.text text] left := by
  rw [toList_quote, List.cons_append]
  refine .mark rfl fun place => ?_
  rw [List.append_assoc]
  exact scans_quote text left place

theorem spells_separator (last : Bool) (left : List Char) :
    Spells (if last then "" else ",").toList (if last then [] else [.comma]) left := by
  cases last with
  | true => exact .nil left
  | false => exact .alone rfl (fun _ _ => rfl) left

theorem ends_separator (last : Bool) (text : String) {left : List Char} (ends : Ends left)
    (nothing : last = true → text = "") :
    Ends ((if last then "" else ",").toList ++ (text.toList ++ left)) := by
  cases last with
  | true => simpa [nothing rfl] using ends
  | false => exact .inl rfl

mutual

theorem spells_compact {left : List Char} (ends : Ends left) : (value : Json) → value.Legible →
    Spells value.compact.toList value.marks left
  | .null, _ => .mark rfl fun place => ⟨_, _, rfl⟩
  | .bool true, _ => .mark rfl fun place => ⟨_, _, rfl⟩
  | .bool false, _ => .mark rfl fun place => ⟨_, _, rfl⟩
  | .number n, legible => by
    obtain ⟨c, rest, spelled, visible, scans⟩ := legible
    rw [compact, spelled]
    exact .mark visible fun place => scans left place ends
  | .string s, _ => spells_quote s left
  | .array items, legible => by
    have opening := Spells.alone (c := '[') rfl (fun _ _ => rfl)
    have close := Spells.alone (c := ']') rfl (fun _ _ => rfl) left
    have closed : Ends (']' :: left) := .inr (.inl rfl)
    have inside := spells_items closed items legible
    have all := close.after (inside.after (opening _))
    simpa [compact, marks] using all
  | .object members, legible => by
    have opening := Spells.alone (c := '\x7b') rfl (fun _ _ => rfl)
    have close := Spells.alone (c := '\x7d') rfl (fun _ _ => rfl) left
    have closed : Ends ('\x7d' :: left) := .inr (.inr rfl)
    have inside := spells_members closed members legible
    have all := close.after (inside.after (opening _))
    simpa [compact, marks] using all

theorem spells_items {left : List Char} (ends : Ends left) : (items : List Json) → LegibleItems items →
    Spells (compactItems items).toList (marksOfItems items) left
  | [], _ => .nil left
  | item :: rest, legible => by
    have later := spells_items ends rest legible.2
    have separator := spells_separator rest.isEmpty ((compactItems rest).toList ++ left)
    have first := spells_compact (ends_separator rest.isEmpty (compactItems rest) ends
      fun empty => by rw [List.isEmpty_iff.mp empty, compactItems]) item legible.1
    have all := later.after (separator.after first)
    simpa [compactItems, marksOfItems] using all

theorem spells_members {left : List Char} (ends : Ends left) : (members : List (String × Json)) →
    LegibleMembers members → Spells (compactMembers members).toList (marksOfMembers members) left
  | [], _ => .nil left
  | (name, value) :: rest, legible => by
    have later := spells_members ends rest legible.2
    have separator := spells_separator rest.isEmpty ((compactMembers rest).toList ++ left)
    have first := spells_compact (ends_separator rest.isEmpty (compactMembers rest) ends
      fun empty => by rw [List.isEmpty_iff.mp empty, compactMembers]) value legible.1
    have colon := Spells.alone (c := ':') rfl (fun _ _ => rfl)
    have all := later.after (separator.after (first.after ((colon _).after (spells_quote name _))))
    simpa [compactMembers, marksOfMembers] using all

end

/-- The outline reads as the value wherever the value fits. -/
def Outlines (outline : Outline) (value : Json) : Prop :=
  ∀ depth, value.height ≤ depth → outline.toJson depth = .ok value

/-- A value begins with a mark that closes nothing. -/
theorem marks_cons (value : Json) : ∃ mark more, value.marks = mark :: more ∧ mark ≠ .closeList := by
  cases value with
  | array items => exact ⟨_, _, rfl, nofun⟩
  | object members => exact ⟨_, _, rfl, nofun⟩
  | _ => exact ⟨_, [], rfl, nofun⟩

theorem tokens_of_items {item : Json} {more : List Json} {tail : List Mark} {read : List Token}
    (marked : read.map Token.mark = marksOfItems (item :: more) ++ tail) :
    ∃ token later, read = token :: later ∧ token.mark ≠ .closeList := by
  obtain ⟨mark, others, same, opens⟩ := marks_cons item
  rw [marksOfItems, same] at marked
  obtain ⟨token, later, rfl, rfl, _⟩ := List.map_eq_cons_iff.mp marked
  exact ⟨token, later, rfl, opens⟩

section Assembly

variable {final : Place} {token : Token} {rest : List Token} {frames : List Frame}

theorem assemble_firstItem {start : Place} (opens : token.mark ≠ .closeList) :
    assemble final (token :: rest) frames (.firstItem start) =
      assemble final (token :: rest) (.list [] start :: frames) .value := by
  obtain ⟨mark, place, stop⟩ := token
  cases mark with
  | closeList => exact absurd rfl opens
  | _ => rfl

theorem assemble_nextItem {items : List (Item Outline)} {start : Place} (opens : token.mark ≠ .closeList) :
    assemble final (token :: rest) (.list items start :: frames) .nextItem =
      assemble final (token :: rest) (.list items start :: frames) .value := by
  obtain ⟨mark, place, stop⟩ := token
  cases mark with
  | closeList => exact absurd rfl opens
  | _ => rfl

end Assembly

/-- Tokens with these marks are taken as one value, whatever is open and whatever follows. -/
def Assembles (marks : List Mark) (value : Json) : Prop :=
  ∀ final (read : List Token) (rest : List Token) frames, read.map Token.mark = marks →
    ∃ outline stop, assemble final (read ++ rest) frames .value = assemble final rest frames (.after outline stop) ∧
      Outlines outline value

theorem assembles_scalar {mark : Mark} {value : Json}
    (begins : ∀ final start stop rest frames, assemble final (⟨mark, start, stop⟩ :: rest) frames .value =
      assemble final rest frames (.after (.scalar value start stop) stop)) : Assembles [mark] value := by
  intro final read rest frames marked
  obtain ⟨⟨_, start, stop⟩, _, rfl, rfl, empty⟩ := List.map_eq_cons_iff.mp marked
  obtain rfl := List.map_eq_nil_iff.mp empty
  exact ⟨.scalar value start stop, stop, begins final start stop rest frames, fun _ _ => rfl⟩

/-- A list or object needs one level of depth for itself. -/
theorem exists_depth {inside depth : Nat} (fits : inside + 1 ≤ depth) : ∃ below, depth = below + 1 ∧ inside ≤ below :=
  ⟨depth - 1, by omega⟩

mutual

theorem assembles : (value : Json) → value.WellFormed → Assembles value.marks value
  | .null, _ | .bool _, _ | .number _, _ | .string _, _ => assembles_scalar fun _ _ _ _ _ => rfl
  | .array [], _ => by
    intro final read rest frames marked
    obtain ⟨⟨_, start, _⟩, inside, rfl, rfl, closes⟩ := List.map_eq_cons_iff.mp marked
    obtain ⟨⟨_, _, stop⟩, after, rfl, rfl, empty⟩ := List.map_eq_cons_iff.mp closes
    obtain rfl := List.map_eq_nil_iff.mp empty
    refine ⟨.list [] start (.ok stop), stop, rfl, fun depth fits => ?_⟩
    obtain ⟨below, rfl, _⟩ := exists_depth fits
    rfl
  | .array (item :: more), wellFormed => by
    intro final read rest frames marked
    obtain ⟨⟨_, start, _⟩, inside, rfl, rfl, content⟩ := List.map_eq_cons_iff.mp marked
    obtain ⟨token, later, rfl, opens⟩ := tokens_of_items content
    obtain ⟨outlines, stop, assembled, outlined⟩ :=
      assembles_items (item :: more) nofun wellFormed final (token :: later) rest frames [] start content
    refine ⟨.list outlines start (.ok stop), stop, Eq.trans ?_ assembled, fun depth fits => ?_⟩
    · exact assemble_firstItem opens
    · obtain ⟨below, rfl, low⟩ := exists_depth fits
      simp only [Outline.toJson, outlined below low]
      rfl
  | .object [], _ => by
    intro final read rest frames marked
    obtain ⟨⟨_, start, _⟩, inside, rfl, rfl, closes⟩ := List.map_eq_cons_iff.mp marked
    obtain ⟨⟨_, _, stop⟩, after, rfl, rfl, empty⟩ := List.map_eq_cons_iff.mp closes
    obtain rfl := List.map_eq_nil_iff.mp empty
    refine ⟨.record [] start (.ok stop), stop, rfl, fun depth fits => ?_⟩
    obtain ⟨below, rfl, _⟩ := exists_depth fits
    rfl
  | .object ((name, value) :: more), wellFormed => by
    intro final read rest frames marked
    obtain ⟨⟨_, start, _⟩, inside, rfl, rfl, content⟩ := List.map_eq_cons_iff.mp marked
    obtain ⟨outlines, stop, assembled, outlined⟩ :=
      assembles_members ((name, value) :: more) nofun wellFormed.2 final inside rest frames [] start content
    obtain ⟨⟨_, place, after⟩, later, rfl, rfl, _⟩ := List.map_eq_cons_iff.mp content
    refine ⟨.record outlines start (.ok stop), stop, Eq.trans rfl assembled, fun depth fits => ?_⟩
    obtain ⟨below, rfl, low⟩ := exists_depth fits
    have ascending : Table.ofList ((name, value) :: more) = (name, value) :: more :=
      Table.ofList_of_ascending wellFormed.1
    simp only [Outline.toJson, outlined below low]
    exact congrArg (fun members => Except.ok (object members)) ascending

theorem assembles_items : (items : List Json) → items ≠ [] → WellFormedItems items →
    ∀ final (read : List Token) rest frames done start,
      read.map Token.mark = marksOfItems items ++ [.closeList] →
      ∃ outlines stop, assemble final (read ++ rest) (.list done start :: frames) .value =
          assemble final rest frames (.after (.list (done.reverse ++ outlines) start (.ok stop)) stop) ∧
        ∀ depth, heightOfItems items ≤ depth → Outline.itemsToJson depth outlines = .ok items
  | [], nonempty, _ => absurd rfl nonempty
  | [item], _, wellFormed => by
    intro final read rest frames done start marked
    simp only [marksOfItems, List.isEmpty_nil, if_true, List.append_nil] at marked
    obtain ⟨first, last, rfl, content, closes⟩ := List.map_eq_append_iff.mp marked
    obtain ⟨⟨_, place, stop⟩, after, rfl, rfl, empty⟩ := List.map_eq_cons_iff.mp closes
    obtain rfl := List.map_eq_nil_iff.mp empty
    obtain ⟨outline, _, assembled, outlined⟩ :=
      assembles item wellFormed.1 final first (⟨.closeList, place, stop⟩ :: rest) (.list done start :: frames) content
    refine ⟨[⟨outline, stop⟩], stop, ?_, fun depth fits => ?_⟩
    · rw [List.append_assoc, List.singleton_append, assembled]
      simp [assemble]
    · simp only [heightOfItems] at fits
      simp only [Outline.itemsToJson, outlined depth (by omega)]
      rfl
  | item :: next :: more, _, wellFormed => by
    intro final read rest frames done start marked
    have spelled : marksOfItems (item :: next :: more) ++ [Mark.closeList] =
        item.marks ++ .comma :: (marksOfItems (next :: more) ++ [.closeList]) := by
      rw [marksOfItems]
      simp
    rw [spelled] at marked
    obtain ⟨first, last, rfl, content, others⟩ := List.map_eq_append_iff.mp marked
    obtain ⟨⟨_, place, stop⟩, after, rfl, rfl, behind⟩ := List.map_eq_cons_iff.mp others
    obtain ⟨outline, _, assembled, outlined⟩ := assembles item wellFormed.1 final first
      (⟨.comma, place, stop⟩ :: after ++ rest) (.list done start :: frames) content
    obtain ⟨token, later, rfl, opens⟩ := tokens_of_items behind
    obtain ⟨outlines, final', assembledMore, outlinedMore⟩ := assembles_items (next :: more) nofun wellFormed.2 final
      (token :: later) rest frames (⟨outline, token.start⟩ :: done) start behind
    refine ⟨⟨outline, token.start⟩ :: outlines, final', ?_, fun depth fits => ?_⟩
    · rw [List.append_assoc, assembled]
      rw [List.reverse_cons, List.append_assoc, List.singleton_append] at assembledMore
      exact Eq.trans (assemble_nextItem opens) assembledMore
    · rw [heightOfItems] at fits
      simp only [Outline.itemsToJson, outlined depth (by omega), outlinedMore depth (by omega)]
      rfl

theorem assembles_members : (members : List (String × Json)) → members ≠ [] → WellFormedMembers members →
    ∀ final (read : List Token) rest frames done start,
      read.map Token.mark = marksOfMembers members ++ [.closeObject] →
      ∃ outlines stop, assemble final (read ++ rest) frames (.nextKey done start) =
          assemble final rest frames (.after (.record (done.reverse ++ outlines) start (.ok stop)) stop) ∧
        ∀ depth, heightOfMembers members ≤ depth → Outline.entriesToJson depth outlines = .ok members
  | [], nonempty, _ => absurd rfl nonempty
  | [(name, value)], _, wellFormed => by
    intro final read rest frames done start marked
    simp only [marksOfMembers, List.isEmpty_nil, if_true, List.append_nil] at marked
    obtain ⟨⟨_, _, _⟩, _, rfl, rfl, named⟩ := List.map_eq_cons_iff.mp marked
    obtain ⟨⟨_, keySettles, _⟩, inside, rfl, rfl, valued⟩ := List.map_eq_cons_iff.mp named
    obtain ⟨first, last, rfl, content, closes⟩ := List.map_eq_append_iff.mp valued
    obtain ⟨⟨_, place, stop⟩, after, rfl, rfl, empty⟩ := List.map_eq_cons_iff.mp closes
    obtain rfl := List.map_eq_nil_iff.mp empty
    obtain ⟨outline, _, assembled, outlined⟩ := assembles value wellFormed.1 final first
      (⟨.closeObject, place, stop⟩ :: rest) (.record done start name keySettles :: frames) content
    refine ⟨[⟨name, keySettles, outline, stop⟩], stop, ?_, fun depth fits => ?_⟩
    · rw [← List.reverse_cons, List.cons_append, List.cons_append, List.append_assoc]
      exact Eq.trans assembled rfl
    · simp only [heightOfMembers] at fits
      simp only [Outline.entriesToJson, outlined depth (by omega)]
      rfl
  | (name, value) :: next :: more, _, wellFormed => by
    intro final read rest frames done start marked
    have spelled : marksOfMembers ((name, value) :: next :: more) ++ [Mark.closeObject] =
        .text name :: .colon :: (value.marks ++ .comma :: (marksOfMembers (next :: more) ++ [.closeObject])) := by
      rw [marksOfMembers]
      simp
    rw [spelled] at marked
    obtain ⟨⟨_, _, _⟩, _, rfl, rfl, named⟩ := List.map_eq_cons_iff.mp marked
    obtain ⟨⟨_, keySettles, _⟩, inside, rfl, rfl, valued⟩ := List.map_eq_cons_iff.mp named
    obtain ⟨first, last, rfl, content, others⟩ := List.map_eq_append_iff.mp valued
    obtain ⟨⟨_, place, _⟩, after, rfl, rfl, behind⟩ := List.map_eq_cons_iff.mp others
    obtain ⟨outline, _, assembled, outlined⟩ := assembles value wellFormed.1 final first
      (⟨.comma, place, _⟩ :: after ++ rest) (.record done start name keySettles :: frames) content
    obtain ⟨outlines, stop, assembledMore, outlinedMore⟩ := assembles_members (next :: more) nofun wellFormed.2 final
      after rest frames (⟨name, keySettles, outline, place⟩ :: done) start behind
    refine ⟨⟨name, keySettles, outline, place⟩ :: outlines, stop, ?_, fun depth fits => ?_⟩
    · rw [List.reverse_cons, List.append_assoc, List.singleton_append] at assembledMore
      rw [List.cons_append, List.cons_append, List.append_assoc]
      exact Eq.trans assembled assembledMore
    · rw [heightOfMembers] at fits
      simp only [Outline.entriesToJson, outlined depth (by omega), outlinedMore depth (by omega)]
      rfl

end

/-- Writing a value and reading it again gives the value back, if its numbers do. -/
theorem read_compact {value : Json} (wellFormed : value.WellFormed) (legible : value.Legible)
    (fits : value.height ≤ depthLimit) : read value.compact = .ok value := by
  have ends : Ends [] := trivial
  obtain ⟨scanned, final, marked, spelled⟩ := spells_compact ends value legible .start []
  have tokenized : tokens value.compact = (scanned, final) := by
    rw [tokens, ← List.append_nil value.compact.toList, spelled, tokensFrom]
    simp
  obtain ⟨outline', stop, assembled, outlined⟩ := assembles value wellFormed final scanned [] [] marked
  have sheet : outline value.compact = ⟨outline', none⟩ := by
    rw [outline, tokenized, ← List.append_nil scanned]
    exact Eq.trans assembled rfl
  rw [read, sheet, outlined depthLimit fits]
  rfl

end Json

end ResourceKinds
