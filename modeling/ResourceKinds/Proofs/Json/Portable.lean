import ResourceKinds.Proofs.Json.ReadBack
import ResourceKinds.Proofs.Json.Retain

namespace ResourceKinds.Json

theorem wellFormedMembers_iff {members : List (String × Json)} :
    WellFormedMembers members ↔ ∀ member ∈ members, member.2.WellFormed := by
  induction members with
  | nil => simp [WellFormedMembers]
  | cons head rest ih => simp [WellFormedMembers, ih]

theorem legibleMembers_iff {members : List (String × Json)} :
    LegibleMembers members ↔ ∀ member ∈ members, member.2.Legible := by
  induction members with
  | nil => simp [LegibleMembers]
  | cons head rest ih => simp [LegibleMembers, ih]

theorem heightOfMembers_le_iff {members : List (String × Json)} {bound : Nat} :
    heightOfMembers members ≤ bound ↔ ∀ member ∈ members, member.2.height ≤ bound := by
  induction members with
  | nil => simp [heightOfMembers]
  | cons head rest ih => simp only [heightOfMembers, Nat.max_le, ih, List.forall_mem_cons]

mutual

theorem Legible.retain {keep : Path → Bool} : {value : Json} → value.Legible → (value.retain keep).Legible
  | .null, legible | .bool _, legible | .number _, legible | .string _, legible => legible
  | .array _, legible => LegibleItems.retain legible
  | .object _, legible => LegibleMembers.retain legible

theorem LegibleMembers.retain {keep : Path → Bool} : {members : List (String × Json)} →
    LegibleMembers members → LegibleMembers (retainMembers keep members)
  | [], _ => trivial
  | (name, value) :: rest, legible => by
    have inner : (value.retain fun path => keep (.member name :: path)).Legible := legible.1.retain
    have later : LegibleMembers (retainMembers keep rest) := legible.2.retain
    simp only [retainMembers]
    split
    · exact ⟨inner, later⟩
    · exact later

theorem LegibleItems.retain {keep : Path → Bool} {start : Nat} : {items : List Json} →
    LegibleItems items → LegibleItems (retainItems keep start items)
  | [], _ => trivial
  | _ :: _, legible => ⟨legible.1.retain, legible.2.retain⟩

end

mutual

theorem height_retain_le (keep : Path → Bool) : (value : Json) → (value.retain keep).height ≤ value.height
  | .null => Nat.le_refl _
  | .bool _ => Nat.le_refl _
  | .number _ => Nat.le_refl _
  | .string _ => Nat.le_refl _
  | .array items => Nat.succ_le_succ (heightOfItems_retain_le keep 0 items)
  | .object members => Nat.succ_le_succ (heightOfMembers_retain_le keep members)

theorem heightOfMembers_retain_le (keep : Path → Bool) : (members : List (String × Json)) →
    heightOfMembers (retainMembers keep members) ≤ heightOfMembers members
  | [] => Nat.le_refl _
  | (name, value) :: rest => by
    have inner := height_retain_le (fun path => keep (.member name :: path)) value
    have later := heightOfMembers_retain_le keep rest
    simp only [retainMembers, heightOfMembers]
    split
    · simp only [heightOfMembers]
      omega
    · omega

theorem heightOfItems_retain_le (keep : Path → Bool) (start : Nat) : (items : List Json) →
    heightOfItems (retainItems keep start items) ≤ heightOfItems items
  | [] => Nat.le_refl _
  | item :: rest => by
    have inner := height_retain_le (fun path => keep (.item start :: path)) item
    have later := heightOfItems_retain_le keep (start + 1) rest
    simp only [retainItems, heightOfItems]
    omega

end

/-- A value that is read back from its text as it was written. -/
structure Portable (value : Json) : Prop where
  wellFormed : value.WellFormed
  legible : value.Legible
  fits : value.height ≤ depthLimit

namespace Portable

theorem read_eq {value : Json} (portable : value.Portable) : read value.compact = .ok value :=
  read_compact portable.wellFormed portable.legible portable.fits

theorem retain {value : Json} (portable : value.Portable) (keep : Path → Bool) : (value.retain keep).Portable :=
  ⟨portable.wellFormed.retain, portable.legible.retain, Nat.le_trans (height_retain_le keep value) portable.fits⟩

theorem insert_string {members : Fields Json} (portable : (object members).Portable) (name text : String) :
    (object (members.insert name (.string text))).Portable := by
  have fits : heightOfMembers members + 1 ≤ depthLimit := portable.fits
  have entry (holds : Json → Prop) (written : holds (.string text)) (old : ∀ member ∈ members, holds member.2) :
      ∀ member ∈ members.insert name (.string text), holds member.2 := by
    intro member inside
    rcases Table.mem_insert inside with rfl | inside
    · exact written
    · exact old member inside
  have low := heightOfMembers_le_iff.mpr
    (entry (·.height ≤ heightOfMembers members) (Nat.zero_le _) (heightOfMembers_le_iff.mp (Nat.le_refl _)))
  refine ⟨⟨Table.ascending_insert portable.wellFormed.1, ?_⟩, ?_, Nat.le_trans (Nat.succ_le_succ low) fits⟩
  · exact wellFormedMembers_iff.mpr (entry WellFormed trivial (wellFormedMembers_iff.mp portable.wellFormed.2))
  · exact legibleMembers_iff.mpr (entry Legible trivial (legibleMembers_iff.mp portable.legible))

end Portable

end ResourceKinds.Json
