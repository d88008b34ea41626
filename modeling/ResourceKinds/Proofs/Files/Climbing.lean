import ResourceKinds.Proofs.Files.Entries
import ResourceKinds.Proofs.Files.Paths

namespace ResourceKinds

namespace FileTree

/-- The place lies in the directory, at whatever depth. -/
def Below (directory place : List String) : Prop := directory <+: place ∧ directory ≠ place

instance (directory place : List String) : Decidable (Below directory place) := inferInstanceAs (Decidable (_ ∧ _))

theorem below_append_iff {common directory place : List String} :
    Below (common ++ directory) (common ++ place) ↔ Below directory place := by
  rw [Below, Below, List.prefix_append_right_inj, ne_eq, List.append_cancel_left_eq]

/-- A front of a path that stops before its last name leads through it. -/
theorem below_of_prefix_dropLast {front place : List String} (nonempty : place ≠ []) (begins : front <+: place.dropLast) :
    Below front place := by
  refine ⟨begins.trans (List.dropLast_prefix place), fun same => ?_⟩
  have short := begins.length_le
  rw [same, List.length_dropLast] at short
  have long := List.length_pos_iff.mpr nonempty
  omega

/-- Levels to climb, and names to go down along after that. -/
structure Climb where
  up : Nat
  names : List String
deriving DecidableEq

namespace Climb

/-- A step up takes back the last name, and climbs only when there is none. -/
def move (climb : Climb) (segment : String) : Climb :=
  if segment = ".." then
    match climb.names with
    | [] => ⟨climb.up + 1, []⟩
    | name :: rest => ⟨climb.up, (name :: rest).dropLast⟩
  else ⟨climb.up, climb.names ++ [segment]⟩

/-- Above the root is the root, however far one climbs. -/
def reach (climb : Climb) (directory : List String) : List String :=
  directory.take (directory.length - climb.up) ++ climb.names

/-- The names lead back through the directories that have been left, and further. -/
def Returns (climb : Climb) (directory : List String) : Prop :=
  Below (directory.drop (directory.length - climb.up)) climb.names

instance (climb : Climb) (directory : List String) : Decidable (climb.Returns directory) :=
  inferInstanceAs (Decidable (Below _ _))

theorem reach_move (climb : Climb) (segment : String) (directory : List String) :
    (climb.move segment).reach directory = FileTree.move (climb.reach directory) segment := by
  unfold move FileTree.move
  by_cases isUp : segment = ".."
  · rw [if_pos isUp, if_pos isUp]
    obtain ⟨up, names⟩ := climb
    cases names with
    | nil =>
      simp only [reach, List.append_nil, List.dropLast_eq_take, List.take_take, List.length_take]
      congr 1
      omega
    | cons name rest => exact (List.dropLast_append_of_ne_nil (List.cons_ne_nil name rest)).symm
  · rw [if_neg isUp, if_neg isUp, reach, reach, List.append_assoc]

theorem below_reach_iff {climb : Climb} {directory : List String} :
    Below directory (climb.reach directory) ↔ climb.Returns directory := by
  have whole := List.take_append_drop (directory.length - climb.up) directory
  calc Below directory (climb.reach directory)
    _ ↔ Below (directory.take (directory.length - climb.up) ++ directory.drop (directory.length - climb.up))
          (directory.take (directory.length - climb.up) ++ climb.names) := by rw [whole, reach]
    _ ↔ climb.Returns directory := below_append_iff

end Climb

/-- A path as it is climbed. -/
def climb (segments : List String) : Climb := segments.foldl Climb.move ⟨0, []⟩

variable {directory segments : List String}

theorem arrival_eq_reach (directory segments : List String) :
    arrival directory segments = (climb segments).reach directory := by
  suffices ∀ climb : Climb, arrival (climb.reach directory) segments = (segments.foldl Climb.move climb).reach directory by
    have start : (⟨0, []⟩ : Climb).reach directory = directory := by simp [Climb.reach]
    have whole := this ⟨0, []⟩
    rwa [start] at whole
  intro climb
  induction segments generalizing climb with
  | nil => rfl
  | cons segment rest ih =>
    rw [List.foldl_cons, ← ih, Climb.reach_move]
    rfl

/-- A path ends below the directory where it begins just if it comes back to it. -/
theorem below_arrival_iff : Below directory (arrival directory segments) ↔ (climb segments).Returns directory := by
  rw [arrival_eq_reach, Climb.below_reach_iff]

/-- A path without steps up only goes down. -/
theorem climb_of_notUp (notUp : ".." ∉ segments) : climb segments = ⟨0, segments⟩ := by
  suffices ∀ names, segments.foldl Climb.move ⟨0, names⟩ = ⟨0, names ++ segments⟩ from this []
  intro names
  induction segments generalizing names with
  | nil => simp
  | cons segment rest ih =>
    obtain ⟨other, notUp⟩ := List.ne_and_not_mem_of_not_mem_cons notUp
    have moved : Climb.move ⟨0, names⟩ segment = ⟨0, names ++ [segment]⟩ := if_neg (Ne.symm other)
    rw [List.foldl_cons, moved, ih notUp, List.append_assoc, List.singleton_append]

theorem returns_of_notUp (nonempty : segments ≠ []) (notUp : ".." ∉ segments) : (climb segments).Returns directory := by
  rw [climb_of_notUp notUp]
  simpa [Climb.Returns, Below] using nonempty

theorem arrival_append (directory segments more : List String) :
    arrival directory (segments ++ more) = arrival (arrival directory segments) more := List.foldl_append

theorem arrival_of_notUp (notUp : ".." ∉ segments) : arrival directory segments = directory ++ segments := by
  rw [arrival_eq_reach, climb_of_notUp notUp]
  simp [Climb.reach]

theorem mem_way_append {place : List String} {more : List String} : place ∈ way directory (segments ++ more) ↔
    place ∈ way directory segments ∨ place ∈ way (arrival directory segments) more := by
  induction segments generalizing directory with
  | nil =>
    constructor
    · exact .inr
    · rintro (atStart | later)
      · exact List.mem_singleton.mp atStart ▸ start_mem_way directory more
      · exact later
  | cons segment rest ih =>
    rw [List.cons_append, way, way, List.mem_cons, List.mem_cons, ih, or_assoc]
    rfl

/-- A path without steps up passes the places of its fronts. -/
theorem mem_way_of_notUp {place : List String} (notUp : ".." ∉ segments) :
    place ∈ way directory segments ↔ ∃ front, front <+: segments ∧ place = directory ++ front := by
  induction segments generalizing directory with
  | nil => simp [way]
  | cons segment rest ih =>
    obtain ⟨other, notUp⟩ := List.ne_and_not_mem_of_not_mem_cons notUp
    have down : move directory segment = directory ++ [segment] := if_neg (Ne.symm other)
    rw [way, List.mem_cons, down, ih notUp]
    constructor
    · rintro (rfl | ⟨front, begins, rfl⟩)
      · exact ⟨[], List.nil_prefix, by simp⟩
      · exact ⟨segment :: front, List.cons_prefix_cons.mpr ⟨rfl, begins⟩, by simp⟩
    · rintro ⟨front, begins, rfl⟩
      cases front with
      | nil => exact .inl (by simp)
      | cons first front =>
        obtain ⟨rfl, goesOn⟩ := List.cons_prefix_cons.mp begins
        exact .inr ⟨front, goesOn, by simp⟩

end FileTree

end ResourceKinds
