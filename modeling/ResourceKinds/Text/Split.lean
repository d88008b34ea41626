namespace ResourceKinds.Text

/-- The pieces between the separators, of which there is one more than separators. -/
def splitChars (separator : Char) : List Char → List (List Char)
  | [] => [[]]
  | c :: rest =>
    if c = separator then [] :: splitChars separator rest
    else match splitChars separator rest with
    | [] => [[c]]
    | piece :: pieces => (c :: piece) :: pieces

def split (separator : Char) (text : String) : List String :=
  (splitChars separator text.toList).map String.ofList

/-- The parts before and after the first separator; without one the second part is empty. -/
def cutChars (separator : Char) : List Char → List Char × List Char
  | [] => ([], [])
  | c :: rest =>
    if c = separator then ([], rest)
    else
      let (before, after) := cutChars separator rest
      (c :: before, after)

def cut (separator : Char) (text : String) : String × String :=
  let (before, after) := cutChars separator text.toList
  (String.ofList before, String.ofList after)

/-- The parts before and after the last separator, if there is one. -/
def cutLastChars? (separator : Char) : List Char → Option (List Char × List Char)
  | [] => none
  | c :: rest => match cutLastChars? separator rest with
    | some (before, after) => some (c :: before, after)
    | none => if c = separator then some ([], rest) else none

def cutLast? (separator : Char) (text : String) : Option (String × String) :=
  (cutLastChars? separator text.toList).map fun (before, after) => (String.ofList before, String.ofList after)

def dropLeading (c : Char) (text : String) : String := String.ofList (text.toList.dropWhile (· = c))

/-- The text without the given character at either end. -/
def strip (c : Char) (text : String) : String :=
  String.ofList ((text.toList.dropWhile (· = c)).reverse.dropWhile (· = c)).reverse

/-- White space as Unicode defines it. -/
def isBlank (c : Char) : Bool :=
  let point := c.toNat
  (0x09 ≤ point && point ≤ 0x0D) || point = 0x20 || point = 0x85 || point = 0xA0 || point = 0x1680 ||
    (0x2000 ≤ point && point ≤ 0x200A) || point = 0x2028 || point = 0x2029 || point = 0x202F ||
    point = 0x205F || point = 0x3000

/-- The text without white space at either end. -/
def trimChars (text : List Char) : List Char := ((text.dropWhile isBlank).reverse.dropWhile isBlank).reverse

def trim (text : String) : String := String.ofList (trimChars text.toList)

theorem splitChars_ne_nil (separator : Char) (text : List Char) : splitChars separator text ≠ [] := by
  cases text with
  | nil => simp [splitChars]
  | cons c rest =>
    simp only [splitChars]
    split
    · simp
    · split <;> simp

/-- Joining the pieces gives the text back. -/
theorem intercalate_splitChars (separator : Char) (text : List Char) :
    [separator].intercalate (splitChars separator text) = text := by
  induction text with
  | nil => rfl
  | cons c rest ih =>
    simp only [splitChars]
    split
    · rename_i same
      subst same
      cases pieces : splitChars c rest with
      | nil => exact absurd pieces (splitChars_ne_nil _ _)
      | cons piece more => rw [pieces] at ih; simp [List.intercalate, ← ih, List.intersperse]
    · cases pieces : splitChars separator rest with
      | nil => exact absurd pieces (splitChars_ne_nil _ _)
      | cons piece more =>
        rw [pieces] at ih
        cases more <;> simp_all [List.intercalate, List.intersperse]

end ResourceKinds.Text
