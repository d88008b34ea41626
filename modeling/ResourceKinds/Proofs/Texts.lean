import Mathlib.Data.List.TakeWhile
import ResourceKinds.Text.Split

namespace ResourceKinds.Text

theorem splitChars_append (separator : Char) (before after : List Char) :
    splitChars separator (before ++ separator :: after) =
      splitChars separator before ++ splitChars separator after := by
  induction before with
  | nil => simp [splitChars]
  | cons c rest ih =>
    rw [List.cons_append, splitChars, splitChars, ih]
    by_cases here : c = separator
    · simp [here]
    · cases pieces : splitChars separator rest with
      | nil => exact absurd pieces (splitChars_ne_nil separator rest)
      | cons piece more => simp [here]

theorem split_append_slash (before after : String) :
    split '/' (before ++ "/" ++ after) = split '/' before ++ split '/' after := by
  simp [split, splitChars_append]

theorem split_ne_nil (separator : Char) (text : String) : split separator text ≠ [] := by
  simp [split, splitChars_ne_nil]

/-- A text is known by its pieces. -/
theorem eq_of_split_eq {separator : Char} {text other : String} (same : split separator text = split separator other) :
    text = other := by
  have pieces := congrArg (List.map String.toList) same
  simp only [split, List.map_map, Function.comp_def, String.toList_ofList, List.map_id'] at pieces
  have joined := intercalate_splitChars separator text.toList
  rw [pieces, intercalate_splitChars] at joined
  exact String.toList_inj.mp joined.symm

theorem splitChars_of_notMem {separator : Char} {text : List Char} (plain : separator ∉ text) :
    splitChars separator text = [text] := by
  induction text with
  | nil => rfl
  | cons c rest ih =>
    obtain ⟨other, plain⟩ := List.ne_and_not_mem_of_not_mem_cons plain
    rw [splitChars, ih plain]
    simp [Ne.symm other]

/-- What is left of a text does not begin with a character that is taken off. -/
theorem head?_strip (c : Char) (text : String) : (strip c text).toList.head? ≠ some c := by
  have front := List.head?_dropWhile_not (fun other => decide (other = c)) text.toList
  obtain ⟨rest, whole⟩ := (List.dropWhile_suffix (fun other => decide (other = c))
    (l := (text.toList.dropWhile (· = c)).reverse)).reverse
  rw [List.reverse_reverse] at whole
  intro first
  rw [strip, String.toList_ofList] at first
  rw [← whole, List.head?_append, first] at front
  simp at front

/-- Pieces that are each followed by a separator are all pieces but the last one, which is empty. -/
theorem splitChars_flatMap {separator : Char} {pieces : List (List Char)} (plain : ∀ piece ∈ pieces, separator ∉ piece) :
    splitChars separator (pieces.flatMap (· ++ [separator])) = pieces ++ [[]] := by
  induction pieces with
  | nil => rfl
  | cons piece rest ih =>
    obtain ⟨first, others⟩ := List.forall_mem_cons.mp plain
    rw [List.flatMap_cons, List.append_assoc, List.singleton_append, splitChars_append, ih others,
      splitChars_of_notMem first, List.singleton_append, List.cons_append]

theorem splitChars_intercalate {separator : Char} {piece : List Char} {pieces : List (List Char)}
    (plain : ∀ part ∈ piece :: pieces, separator ∉ part) :
    splitChars separator ([separator].intercalate (piece :: pieces)) = piece :: pieces := by
  induction pieces generalizing piece with
  | nil => simpa using splitChars_of_notMem (plain piece (List.mem_singleton_self piece))
  | cons next rest ih =>
    obtain ⟨first, others⟩ := List.forall_mem_cons.mp plain
    rw [List.intercalate_cons_cons, List.append_assoc, List.singleton_append, splitChars_append, ih others,
      splitChars_of_notMem first, List.singleton_append]

theorem split_intercalate_slash {pieces : List String} (nonempty : pieces ≠ [])
    (plain : ∀ piece ∈ pieces, '/' ∉ piece.toList) : split '/' ("/".intercalate pieces) = pieces := by
  obtain ⟨first, rest, rfl⟩ := List.exists_cons_of_ne_nil nonempty
  have chars : ∀ piece ∈ (first :: rest).map String.toList, '/' ∉ piece := by
    intro piece inside
    obtain ⟨text, among, rfl⟩ := List.mem_map.mp inside
    exact plain text among
  have cut := splitChars_intercalate chars
  rw [← List.map_cons] at cut
  rw [split, String.toList_intercalate, show "/".toList = ['/'] from rfl, cut]
  simp [Function.comp_def]

theorem mem_splitChars {separator : Char} {text piece : List Char} (inside : piece ∈ splitChars separator text) :
    separator ∉ piece := by
  induction text generalizing piece with
  | nil => simp_all [splitChars]
  | cons c rest ih =>
    rw [splitChars] at inside
    split at inside
    · obtain rfl | later := List.mem_cons.mp inside
      · exact List.not_mem_nil
      · exact ih later
    · rename_i other
      cases pieces : splitChars separator rest with
      | nil => exact absurd pieces (splitChars_ne_nil separator rest)
      | cons first more =>
        rw [pieces] at inside ih
        obtain rfl | later := List.mem_cons.mp inside
        · exact List.not_mem_cons_of_ne_of_not_mem (Ne.symm other) (ih (List.mem_cons_self ..))
        · exact ih (List.mem_cons_of_mem _ later)

/-- The piece stands between two separators, or between one and an end of the text. -/
structure IsPiece (separator : Char) (text piece : List Char) : Prop where
  plain : separator ∉ piece
  stands : ∃ before after, text = before ++ piece ++ after ∧ (before = [] ∨ before.getLast? = some separator) ∧
    (after = [] ∨ after.head? = some separator)

theorem intercalate_append_cons (separator : Char) (before : List (List Char)) (piece : List Char)
    (after : List (List Char)) : [separator].intercalate (before ++ piece :: after) =
      before.flatMap (· ++ [separator]) ++ piece ++ after.flatMap (separator :: ·) := by
  induction before with
  | nil =>
    induction after generalizing piece with
    | nil => simp
    | cons next rest ih =>
      rw [List.nil_append, List.intercalate_cons_cons, ← List.nil_append (next :: rest), ih]
      simp
  | cons first rest ih =>
    obtain ⟨next, more, others⟩ : ∃ next more, rest ++ piece :: after = next :: more :=
      List.exists_cons_of_ne_nil (List.append_ne_nil_of_right_ne_nil _ (List.cons_ne_nil _ _))
    rw [List.cons_append, others, List.intercalate_cons_cons, ← others, ih]
    simp

theorem mem_splitChars_iff {separator : Char} {text piece : List Char} :
    piece ∈ splitChars separator text ↔ IsPiece separator text piece := by
  constructor
  · intro inside
    obtain ⟨before, after, whole⟩ := List.append_of_mem inside
    have joined := intercalate_splitChars separator text
    rw [whole, intercalate_append_cons] at joined
    refine ⟨mem_splitChars inside, _, _, joined.symm, ?_, ?_⟩
    · rcases List.eq_nil_or_concat before with rfl | ⟨front, last, rfl⟩
      · exact .inl rfl
      · exact .inr (by simp)
    · cases after with
      | nil => exact .inl rfl
      | cons next rest => exact .inr (by simp)
  · rintro ⟨plain, before, after, rfl, start, stop⟩
    have later : ∃ more, splitChars separator (piece ++ after) = piece :: more := by
      obtain rfl | first := stop
      · exact ⟨[], by rw [List.append_nil, splitChars_of_notMem plain]⟩
      · obtain ⟨rest, rfl⟩ := List.head?_eq_some_iff.mp first
        exact ⟨splitChars separator rest, by rw [splitChars_append, splitChars_of_notMem plain, List.singleton_append]⟩
    obtain ⟨more, pieces⟩ := later
    rw [List.append_assoc]
    obtain rfl | last := start
    · rw [List.nil_append, pieces]
      exact List.mem_cons_self ..
    · obtain ⟨front, rfl⟩ := List.getLast?_eq_some_iff.mp last
      rw [List.append_assoc, List.singleton_append, splitChars_append, pieces]
      exact List.mem_append_right _ (List.mem_cons_self ..)

/-- The first piece is what stands before the first separator. -/
theorem splitChars_cut (separator : Char) (text : List Char) : splitChars separator text =
    (cutChars separator text).1 ::
      if separator ∈ text then splitChars separator (cutChars separator text).2 else [] := by
  induction text with
  | nil => simp [splitChars, cutChars]
  | cons c rest ih =>
    by_cases here : c = separator
    · simp [splitChars, cutChars, here]
    · simp [splitChars, cutChars, here, Ne.symm here, ih]

theorem cutChars_of_notMem {separator : Char} {text : List Char} (plain : separator ∉ text) :
    cutChars separator text = (text, []) := by
  induction text with
  | nil => rfl
  | cons c rest ih =>
    obtain ⟨other, plain⟩ := List.ne_and_not_mem_of_not_mem_cons plain
    simp [cutChars, ih plain, Ne.symm other]

/-- The pieces that are not empty. -/
def pieces (separator : Char) (text : String) : List String := (split separator text).filter (!·.isEmpty)

theorem filter_ofList (texts : List (List Char)) :
    (texts.map String.ofList).filter (!·.isEmpty) = (texts.filter (!·.isEmpty)).map String.ofList := by
  have same (text : List Char) : (String.ofList text).isEmpty = text.isEmpty := by
    rw [Bool.eq_iff_iff]
    simp
  simp only [List.filter_map, Function.comp_def, same]

theorem pieces_eq (separator : Char) (text : String) :
    pieces separator text = ((splitChars separator text.toList).filter (!·.isEmpty)).map String.ofList :=
  filter_ofList _

theorem mem_pieces {separator : Char} {text piece : String} (inside : piece ∈ pieces separator text) :
    piece ≠ "" ∧ separator ∉ piece.toList := by
  obtain ⟨among, nonempty⟩ := List.mem_filter.mp inside
  obtain ⟨chars, part, rfl⟩ := List.mem_map.mp among
  refine ⟨by simpa using nonempty, ?_⟩
  rw [String.toList_ofList]
  exact mem_splitChars part

theorem pieces_dropLeading (separator : Char) (text : String) :
    pieces separator (dropLeading separator text) = pieces separator text := by
  rw [pieces_eq, pieces_eq, dropLeading, String.toList_ofList]
  congr 1
  induction text.toList with
  | nil => rfl
  | cons c rest ih =>
    by_cases here : c = separator
    · simpa [splitChars, here] using ih
    · simp [here]

/-- The part before the first separator is a piece if it is not empty, and the others are in the part after it. -/
theorem pieces_cut (separator : Char) (text : String) : pieces separator text =
    [(cut separator text).1].filter (!·.isEmpty) ++ pieces separator (cut separator text).2 := by
  have later : (if separator ∈ text.toList then splitChars separator (cutChars separator text.toList).2 else []).filter
      (!·.isEmpty) = (splitChars separator (cutChars separator text.toList).2).filter (!·.isEmpty) := by
    split
    · rfl
    · rename_i plain
      rw [cutChars_of_notMem plain]
      rfl
  rw [pieces_eq, splitChars_cut, ← List.singleton_append, List.filter_append, later, List.map_append, pieces_eq]
  simp only [cut, String.toList_ofList]
  exact congrArg (· ++ _) (filter_ofList [_]).symm

/-- There is something before the first separator once those in front have been dropped. -/
theorem cut_dropLeading {separator : Char} {text : String} (nonempty : dropLeading separator text ≠ "") :
    (cut separator (dropLeading separator text)).1 ≠ "" := by
  have front := List.head?_dropWhile_not (fun other => decide (other = separator)) text.toList
  simp only [cut, dropLeading, String.toList_ofList] at nonempty ⊢
  cases left : text.toList.dropWhile (· = separator) with
  | nil => simp [left] at nonempty
  | cons c rest =>
    rw [left] at front
    simp_all [cutChars]

/-- The core is what is left of the text when all white space at its ends is taken off. -/
structure Trims (text core : List Char) : Prop where
  around : ∃ front back, text = front ++ core ++ back ∧ (∀ c ∈ front, isBlank c = true) ∧ ∀ c ∈ back, isBlank c = true
  first : ∀ c, core.head? = some c → isBlank c = false
  last : ∀ c, core.getLast? = some c → isBlank c = false

theorem head?_dropWhile {p : Char → Bool} {text : List Char} {c : Char} (first : (text.dropWhile p).head? = some c) :
    p c = false := by
  have stops := List.head?_dropWhile_not p text
  rwa [first] at stops

/-- Every text has just one core. -/
theorem trims_iff {text core : List Char} : Trims text core ↔ trimChars text = core := by
  constructor
  · rintro ⟨⟨front, back, rfl, inFront, inBack⟩, first, last⟩
    rw [trimChars, List.append_assoc, List.dropWhile_append_of_pos inFront]
    rcases List.eq_nil_or_concat core with rfl | ⟨body, final, rfl⟩
    · rw [List.nil_append, List.dropWhile_eq_nil_iff.mpr inBack]
      rfl
    · have blankBack : ∀ c ∈ back.reverse, isBlank c = true := fun c inside => inBack c (List.mem_reverse.mp inside)
      have finalFull : ¬ isBlank final = true := by simp [last final (by simp)]
      have whole : (body.concat final ++ back).dropWhile isBlank = body.concat final ++ back := by
        obtain ⟨c, rest, same⟩ : ∃ c rest, body.concat final = c :: rest :=
          List.exists_cons_of_ne_nil (by simp)
        rw [same, List.cons_append, List.dropWhile_cons_of_neg (by simp [first c (by rw [same]; rfl)])]
      rw [whole, List.reverse_append, List.dropWhile_append_of_pos blankBack, List.concat_eq_append,
        List.reverse_concat, List.dropWhile_cons_of_neg finalFull, ← List.reverse_concat, List.reverse_reverse]
  · rintro rfl
    let left := text.dropWhile isBlank
    have split : trimChars text ++ (left.reverse.takeWhile isBlank).reverse = left := by
      rw [trimChars, ← List.reverse_append, List.takeWhile_append_dropWhile, List.reverse_reverse]
    refine ⟨⟨text.takeWhile isBlank, (left.reverse.takeWhile isBlank).reverse, ?_, ?_, ?_⟩, ?_, ?_⟩
    · rw [List.append_assoc, split, List.takeWhile_append_dropWhile]
    · exact fun c inside => List.mem_takeWhile_imp inside
    · exact fun c inside => List.mem_takeWhile_imp (List.mem_reverse.mp inside)
    · intro c found
      have front : left.head? = some c := by rw [← split, List.head?_append, found, Option.some_or]
      exact head?_dropWhile front
    · intro c found
      rw [trimChars, List.getLast?_reverse] at found
      exact head?_dropWhile found

theorem cutLastChars?_eq_none {separator : Char} {text : List Char} :
    cutLastChars? separator text = none ↔ separator ∉ text := by
  induction text with
  | nil => simp [cutLastChars?]
  | cons c rest ih =>
    simp only [cutLastChars?]
    cases found : cutLastChars? separator rest with
    | some parts => simp [← ih, found]
    | none =>
      have absent := ih.mp found
      by_cases same : c = separator
      · simp [same]
      · simp [same, absent, Ne.symm same]

theorem cutLastChars?_append {separator : Char} (before : List Char) {after : List Char} (last : separator ∉ after) :
    cutLastChars? separator (before ++ separator :: after) = some (before, after) := by
  induction before with
  | nil => simp [cutLastChars?, cutLastChars?_eq_none.mpr last]
  | cons c rest ih => simp [cutLastChars?, ih]

theorem eq_append_of_cutLastChars? {separator : Char} {text before after : List Char}
    (cuts : cutLastChars? separator text = some (before, after)) :
    text = before ++ separator :: after ∧ separator ∉ after := by
  induction text generalizing before with
  | nil => cases cuts
  | cons c rest ih =>
    simp only [cutLastChars?] at cuts
    cases found : cutLastChars? separator rest with
    | some parts =>
      simp only [found] at cuts
      obtain ⟨rfl, rfl⟩ := Prod.mk.inj (Option.some.inj cuts)
      obtain ⟨same, last⟩ := ih found
      exact ⟨by rw [same]; rfl, last⟩
    | none =>
      simp only [found] at cuts
      split at cuts
      · rename_i same
        obtain ⟨rfl, rfl⟩ := Prod.mk.inj (Option.some.inj cuts)
        exact ⟨by rw [same]; rfl, cutLastChars?_eq_none.mp found⟩
      · cases cuts

theorem cutLast?_append (before : String) {after : String} {separator : Char} (last : separator ∉ after.toList) :
    cutLast? separator (before ++ String.singleton separator ++ after) = some (before, after) := by
  simp [cutLast?, cutLastChars?_append before.toList last]

theorem eq_append_of_cutLast? {text before after : String} {separator : Char}
    (cuts : cutLast? separator text = some (before, after)) : text = before ++ String.singleton separator ++ after := by
  obtain ⟨⟨first, second⟩, parts, same⟩ := Option.map_eq_some_iff.mp cuts
  obtain ⟨rfl, rfl⟩ := Prod.mk.inj same
  have spelled := (eq_append_of_cutLastChars? parts).1
  rw [← String.toList_inj, spelled]
  simp

end ResourceKinds.Text
