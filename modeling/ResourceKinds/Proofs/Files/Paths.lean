import Mathlib.Data.List.Basic
import ResourceKinds.FileTree
import ResourceKinds.Proofs.Texts

namespace ResourceKinds

namespace FilePath

variable {base path : String}

theorem text_eq_intercalate (path : FilePath) : path.text = "/".intercalate path.pieces := by
  have joined := Text.intercalate_splitChars '/' path.text.toList
  rw [← String.toList_inj, String.toList_intercalate, pieces, Text.split, List.map_map]
  simpa [Function.comp_def] using joined.symm

/-- Some pieces from the front make the front of the text. -/
theorem intercalate_of_prefix {front pieces : List String} (begins : front <+: pieces) :
    ∃ rest, "/".intercalate pieces = "/".intercalate front ++ rest := by
  obtain ⟨more, rfl⟩ := begins
  rcases List.eq_nil_or_concat' front with rfl | ⟨early, last, rfl⟩
  · exact ⟨"/".intercalate more, by simp⟩
  · refine ⟨String.ofList ((more.map String.toList).flatMap ('/' :: ·)), ?_⟩
    have short := Text.intercalate_append_cons '/' (early.map String.toList) last.toList []
    have long := Text.intercalate_append_cons '/' (early.map String.toList) last.toList (more.map String.toList)
    rw [List.append_assoc, List.singleton_append, ← String.toList_inj, String.toList_append, String.toList_intercalate,
      String.toList_intercalate, List.map_append, List.map_append, List.map_cons, List.map_cons, List.map_nil]
    simp only [show "/".toList = ['/'] from rfl, short, long, String.toList_ofList, List.flatMap_nil, List.append_nil]

theorem segments_append (front path : String) :
    (ofString (front ++ "/" ++ path)).segments = (ofString front).segments ++ (ofString path).segments := by
  simp [segments, pieces, Text.split_append_slash]

theorem absolute_append {base : String} (nonempty : base ≠ "") (rest : String) :
    (ofString (base ++ rest)).absolute = (ofString base).absolute := by
  have first : base.toList ≠ [] := by simpa using nonempty
  obtain ⟨c, chars, same⟩ := List.exists_cons_of_ne_nil first
  simp [absolute, same]

/-- Below another path, a relative one keeps its pieces. In front of them are those of the other path, but for an empty
one behind a slash at its end. -/
theorem exists_pieces_join (base : String) (relative : path.toList.head? ≠ some '/') :
    ∃ front rest, (ofString (join base path)).pieces = front ++ (ofString path).pieces ∧
      front.filter isSegment = (ofString base).segments ∧ base = "/".intercalate front ++ rest := by
  rw [join, if_neg relative]
  by_cases empty : base = ""
  · subst empty
    exact ⟨[], "", rfl, by decide, by simp⟩
  · rw [if_neg empty]
    split
    · rename_i closed
      obtain ⟨front, rfl⟩ : ∃ front, base = front ++ "/" := by
        obtain ⟨chars, same⟩ := List.getLast?_eq_some_iff.mp closed
        exact ⟨String.ofList chars, String.toList_inj.mp (by simp [same])⟩
      have nothing : (ofString "").segments = [] := by decide
      have segments := segments_append front ""
      rw [String.append_empty, nothing, List.append_nil] at segments
      refine ⟨Text.split '/' front, "/", Text.split_append_slash front path, segments.symm, ?_⟩
      exact congrArg (· ++ "/") (text_eq_intercalate (ofString front))
    · refine ⟨Text.split '/' base, "", Text.split_append_slash base path, rfl, ?_⟩
      rw [String.append_empty]
      exact text_eq_intercalate (ofString base)

/-- A relative path below another one has the segments of both. -/
theorem segments_join (relative : path.toList.head? ≠ some '/') :
    (ofString (join base path)).segments = (ofString base).segments ++ (ofString path).segments := by
  obtain ⟨front, _, whole, same, _⟩ := exists_pieces_join base relative
  rw [segments, whole, List.filter_append, same]
  rfl

theorem absolute_join (relative : path.toList.head? ≠ some '/') :
    (ofString (join base path)).absolute = (ofString base).absolute := by
  rw [join, if_neg relative]
  by_cases empty : base = ""
  · subst empty
    rw [if_pos rfl]
    exact decide_eq_false relative
  · rw [if_neg empty]
    split
    · exact absolute_append empty path
    · rw [String.append_assoc]
      exact absolute_append empty _

theorem ending_eq_name {path : FilePath} {last : String} (found : path.pieces.getLast? = some last)
    (named : isSegment last = true) : path.ending = .name := by
  obtain ⟨front, same⟩ := List.getLast?_eq_some_iff.mp found
  simp only [isSegment, Bool.and_eq_true, decide_eq_true_eq] at named
  simp [ending, same, named.1, named.2]

section Plain

/-- Names and nothing else, from wherever the path begins: no piece is empty, a dot or two dots. -/
def Plain (path : String) : Prop := ∀ piece ∈ Text.split '/' path, piece ≠ "" ∧ piece ≠ "." ∧ piece ≠ ".."

instance (path : String) : Decidable (Plain path) :=
  inferInstanceAs (Decidable (∀ piece ∈ Text.split '/' path, piece ≠ "" ∧ piece ≠ "." ∧ piece ≠ ".."))

theorem Plain.notUp (plain : Plain path) : ".." ∉ Text.split '/' path := fun inside => (plain ".." inside).2.2 rfl

theorem Plain.relative (plain : Plain path) : path.toList.head? ≠ some '/' := by
  intro first
  obtain ⟨rest, chars⟩ := List.head?_eq_some_iff.mp first
  have inside : "" ∈ Text.split '/' path := by simp [Text.split, chars, Text.splitChars]
  exact (plain "" inside).1 rfl

theorem Plain.isSegment (plain : Plain path) {piece : String} (inside : piece ∈ Text.split '/' path) :
    isSegment piece = true := by
  simpa [FilePath.isSegment] using ⟨(plain piece inside).1, (plain piece inside).2.1⟩

theorem segments_of_plain (plain : Plain path) : (ofString path).segments = Text.split '/' path :=
  List.filter_eq_self.mpr fun _ inside => plain.isSegment inside

/-- A plain path ends with a name, wherever it begins. -/
theorem ending_join_of_plain (base : String) (plain : Plain path) : (ofString (join base path)).ending = .name := by
  obtain ⟨front, _, whole, _⟩ := exists_pieces_join base plain.relative
  obtain ⟨last, found⟩ := Option.ne_none_iff_exists'.mp
    (mt List.getLast?_eq_none_iff.mp (Text.split_ne_nil '/' path))
  have pieces : (ofString path).pieces = Text.split '/' path := rfl
  have named := plain.isSegment (List.mem_of_getLast? found)
  refine ending_eq_name ?_ named
  rw [whole, pieces, List.getLast?_append, found, Option.some_or]

end Plain

section Parent

theorem front_isPrefix (pieces : List String) : front pieces <+: pieces := by
  have short := (List.dropWhile_suffix (!isSegment ·)).trans
    ((List.tail_suffix _).trans (List.dropWhile_suffix (!isSegment ·) (l := pieces.reverse)))
  rw [← List.reverse_prefix, List.reverse_reverse] at short
  exact short

theorem isSegment_of_getLast?_front {pieces : List String} {last : String} (found : (front pieces).getLast? = some last) :
    isSegment last = true := by
  have stops := List.head?_dropWhile_not (!isSegment ·) (pieces.reverse.dropWhile (!isSegment ·)).tail
  rw [front, List.getLast?_reverse] at found
  rw [found] at stops
  simpa using stops

theorem filter_dropWhile (pieces : List String) :
    (pieces.dropWhile (!isSegment ·)).filter isSegment = pieces.filter isSegment := by
  induction pieces with
  | nil => rfl
  | cons piece rest ih => by_cases named : isSegment piece = true <;> simp [named, ih]

/-- All segments but the last one are in front of it. -/
theorem filter_front (pieces : List String) : (front pieces).filter isSegment = (pieces.filter isSegment).dropLast := by
  rw [front, List.filter_reverse, filter_dropWhile]
  have whole := filter_dropWhile pieces.reverse
  have stops := List.head?_dropWhile_not (!isSegment ·) pieces.reverse
  rw [List.filter_reverse] at whole
  cases left : pieces.reverse.dropWhile (!isSegment ·) with
  | nil =>
    rw [left] at whole
    rw [List.reverse_eq_nil_iff.mp whole.symm]
    rfl
  | cons last rest =>
    rw [left] at whole stops
    rw [List.filter_cons_of_pos (by simpa using stops)] at whole
    rw [List.tail_cons, ← List.reverse_reverse (pieces.filter isSegment), ← whole, List.reverse_cons,
      List.dropLast_concat]

variable (path : FilePath)

theorem exists_text_of_absolute {path : FilePath} (isAbsolute : path.absolute = true) :
    ∃ rest, path.text = "/" ++ rest := by
  obtain ⟨rest, chars⟩ := List.head?_eq_some_iff.mp (of_decide_eq_true isAbsolute)
  exact ⟨String.ofList rest, by rw [← String.toList_inj]; simp [chars]⟩

/-- The parent of a path is the part of it up to the end of the segment before the last. -/
theorem exists_text_parent : ∃ rest, path.text = path.parent.text ++ rest := by
  rw [parent]
  split
  · split
    · exact exists_text_of_absolute ‹_›
    · exact ⟨path.text, by simp⟩
  · rw [path.text_eq_intercalate]
    exact intercalate_of_prefix (front_isPrefix path.pieces)

theorem pieces_parent {path : FilePath} (nonempty : front path.pieces ≠ []) :
    path.parent.pieces = front path.pieces := by
  have parts : ∀ piece ∈ front path.pieces, '/' ∉ piece.toList := by
    intro piece inside
    obtain ⟨letters, part, rfl⟩ := List.mem_map.mp ((front_isPrefix path.pieces).subset inside)
    rw [String.toList_ofList]
    exact Text.mem_splitChars part
  rw [parent]
  split
  · exact absurd ‹_› nonempty
  · exact Text.split_intercalate_slash nonempty parts

theorem segments_parent : path.parent.segments = path.segments.dropLast := by
  have split := filter_front path.pieces
  by_cases nonempty : front path.pieces = []
  · rw [nonempty] at split
    rw [segments, segments, ← split, parent, nonempty]
    cases path.absolute <;> decide
  · rw [segments, pieces_parent nonempty, split, segments]

theorem ending_parent : path.parent.ending ≠ .dot := by
  by_cases nonempty : front path.pieces = []
  · rw [parent, nonempty]
    cases path.absolute <;> decide
  · obtain ⟨last, found⟩ := Option.ne_none_iff_exists'.mp (mt List.getLast?_eq_none_iff.mp nonempty)
    have pieces := pieces_parent nonempty
    rw [← pieces] at found
    rw [ending_eq_name found (isSegment_of_getLast?_front (pieces ▸ found))]
    exact nofun

theorem absolute_parent : path.parent.absolute = path.absolute := by
  by_cases nonempty : front path.pieces = []
  · rw [parent, nonempty]
    cases path.absolute <;> decide
  · obtain ⟨rest, whole⟩ := path.exists_text_parent
    have pieces := pieces_parent nonempty
    obtain ⟨last, found⟩ := Option.ne_none_iff_exists'.mp (mt List.getLast?_eq_none_iff.mp nonempty)
    have named := isSegment_of_getLast?_front found
    have text : path.parent.text ≠ "" := by
      intro empty
      rw [FilePath.pieces, empty] at pieces
      rw [← pieces] at found
      obtain rfl : "" = last := Option.some.inj found
      cases named
    have same := absolute_append text rest
    rw [← whole] at same
    exact same.symm

theorem fault?_eq_none {path : FilePath} :
    path.fault? = none ↔ '\x00' ∉ path.text.toList ∧ path.text.utf8ByteSize ≤ sizeLimit := by
  unfold fault?
  split
  · rename_i nul
    simpa using fun absent => absurd (by simpa using nul) absent
  · rename_i plain
    split
    · rename_i long
      simpa using fun _ => long
    · rename_i short
      simpa using ⟨by simpa using plain, by omega⟩

/-- The system takes the front of a path that it takes. -/
theorem fault?_of_append {path before : FilePath} {rest : String} (taken : path.fault? = none)
    (whole : path.text = before.text ++ rest) : before.fault? = none := by
  obtain ⟨plain, short⟩ := fault?_eq_none.mp taken
  rw [whole, String.utf8ByteSize_append] at short
  rw [whole, String.toList_append] at plain
  exact fault?_eq_none.mpr ⟨fun inside => plain (List.mem_append_left _ inside), by omega⟩

/-- The system takes what lies below another path alone if it takes it there. -/
theorem fault?_of_join {path : String} (taken : (ofString (join base path)).fault? = none) :
    (ofString path).fault? = none := by
  obtain ⟨before, whole⟩ : ∃ before, join base path = before ++ path := by
    rw [join]
    split
    · exact ⟨"", by simp⟩
    · split
      · exact ⟨"", by simp⟩
      · split
        · exact ⟨base, rfl⟩
        · exact ⟨base ++ "/", rfl⟩
  obtain ⟨plain, short⟩ := fault?_eq_none.mp taken
  simp only [whole, String.utf8ByteSize_append, String.toList_append] at plain short
  exact fault?_eq_none.mpr ⟨fun inside => plain (List.mem_append_right _ inside), by simp only; omega⟩

theorem fault?_parent {path : FilePath} (taken : path.fault? = none) : path.parent.fault? = none := by
  obtain ⟨rest, whole⟩ := path.exists_text_parent
  exact fault?_of_append taken whole

/-- The parent of a name in a directory is the directory, but for what follows its last segment. -/
theorem exists_text_parent_join (base : String) {name : String} (plain : Plain name)
    (alone : Text.split '/' name = [name]) : ∃ rest, base = (ofString (join base name)).parent.text ++ rest := by
  have relative := plain.relative
  have named : isSegment name = true := plain.isSegment (alone ▸ List.mem_singleton_self name)
  obtain ⟨before, rest, whole, _, text⟩ := exists_pieces_join base relative
  have pieces : (ofString name).pieces = [name] := alone
  have begins : front (ofString (join base name)).pieces <+: before := by
    rw [whole, pieces, front, List.reverse_append, List.reverse_singleton, List.singleton_append,
      List.dropWhile_cons_of_neg (by simp [named]), List.tail_cons, ← List.reverse_suffix, List.reverse_reverse]
    exact List.dropWhile_suffix _
  rw [parent]
  split
  · split
    · rename_i isAbsolute
      rw [absolute_join relative] at isAbsolute
      exact exists_text_of_absolute isAbsolute
    · exact ⟨base, by simp⟩
  · obtain ⟨more, longer⟩ := intercalate_of_prefix begins
    exact ⟨more ++ rest, by rw [← String.append_assoc, ← longer, ← text]⟩

end Parent

end FilePath

end ResourceKinds
