import ResourceKinds.Json.Printer
import ResourceKinds.Json.Token

namespace ResourceKinds.Json

/-- The scan ends well with this value and leaves these characters, wherever that is. -/
def Scans {α : Type} {length : Nat} (scan : Cursor.Scan α length) (value : α) (left : List Char) : Prop :=
  ∃ place shorter, scan = .ok (value, ⟨⟨left, place⟩, shorter⟩)

def escaped (text : List Char) : List Char := text.flatMap fun c => (escapeChar c).toList

theorem toList_quote (text : String) : (quote text).toList = '\"' :: escaped text.toList ++ ['\"'] := by
  have unrolled (chars : List Char) (start : String) :
      (chars.foldl (fun text c => text ++ escapeChar c) start).toList = start.toList ++ escaped chars := by
    induction chars generalizing start with
    | nil => simp [escaped]
    | cons c rest ih => simp [ih, escaped]
  simp [quote, String.foldl_eq_foldl_toList, unrolled]

theorem hexValue?_hexDigit : ∀ n < 16, hexValue? (hexDigit n) = some n := by decide

theorem hexQuad?_control {n : Nat} (control : n < 32) :
    hexQuad? '0' '0' (hexDigit (n / 16)) (hexDigit (n % 16)) = some n := by
  have zero : hexValue? '0' = some 0 := by decide
  have high := hexValue?_hexDigit (n / 16) (by omega)
  have low := hexValue?_hexDigit (n % 16) (by omega)
  simp only [hexQuad?, zero, high, low, Option.bind_eq_bind, Option.bind_some, Option.pure_def, Option.some.injEq]
  omega

section Characters

variable {rest seen left : List Char} {place : Place} {text : String}

theorem scans_plain {c : Char} (notQuote : c ≠ '\"') (notBackslash : c ≠ '\\') (noControl : ¬ c.toNat < 32)
    (later : Scans (scanText rest (place.after c) (c :: seen)) text left) :
    Scans (scanText (c :: rest) place seen) text left := by
  obtain ⟨stop, shorter, ends⟩ := later
  refine ⟨stop, Nat.le_succ_of_le shorter, ?_⟩
  rw [scanText, if_neg noControl, ends]
  · rfl
  · exact notQuote
  all_goals intros; contradiction

theorem scans_simple {letter c : Char} (found : simpleEscape? letter = some c)
    (later : Scans (scanText rest ((place.after '\\').after letter) (c :: seen)) text left) :
    Scans (scanText ('\\' :: letter :: rest) place seen) text left := by
  obtain ⟨stop, shorter, ends⟩ := later
  have notHex : letter ≠ 'u' := by
    rintro rfl
    cases found
  refine ⟨stop, Nat.le_succ_of_le (Nat.le_succ_of_le shorter), ?_⟩
  rw [scanText]
  · simp only [found, ends, Except.map]
  all_goals intros; contradiction

theorem scans_hex {a b c d : Char} {unit : Nat} (quad : hexQuad? a b c d = some unit) (below : unit < 0xD800)
    (later : Scans (scanText rest (place.advance ['\\', 'u', a, b, c, d]) (Char.ofNat unit :: seen)) text left) :
    Scans (scanText ('\\' :: 'u' :: a :: b :: c :: d :: rest) place seen) text left := by
  obtain ⟨stop, shorter, ends⟩ := later
  refine ⟨stop, by simp only [List.length_cons] at shorter ⊢; omega, ?_⟩
  simp only [scanText, quad, below, decide_true, Bool.true_or, if_true, ends, Except.map]

/-- The scanner passes an escaped character and has it on its stack afterwards. -/
theorem scans_escapeChar (c : Char) (later : ∀ place, Scans (scanText rest place (c :: seen)) text left) :
    Scans (scanText ((escapeChar c).toList ++ rest) place seen) text left := by
  by_cases quote : c = '\"'
  · subst quote; exact scans_simple rfl (later _)
  by_cases backslash : c = '\\'
  · subst backslash; exact scans_simple rfl (later _)
  by_cases newline : c = '\n'
  · subst newline; exact scans_simple rfl (later _)
  by_cases carriageReturn : c = '\r'
  · subst carriageReturn; exact scans_simple rfl (later _)
  by_cases tab : c = '\t'
  · subst tab; exact scans_simple rfl (later _)
  by_cases backspace : c = '\x08'
  · subst backspace; exact scans_simple rfl (later _)
  by_cases formFeed : c = '\x0c'
  · subst formFeed; exact scans_simple rfl (later _)
  by_cases control : c.toNat < 32
  · have spelled : (escapeChar c).toList = ['\\', 'u', '0', '0', hexDigit (c.toNat / 16), hexDigit (c.toNat % 16)] := by
      simp [escapeChar, control]
    rw [spelled]
    refine scans_hex (hexQuad?_control control) (by omega) ?_
    rw [Char.ofNat_toNat]
    exact later _
  · have spelled : (escapeChar c).toList = [c] := by simp [escapeChar, control]
    rw [spelled]
    exact scans_plain quote backslash control (later _)

theorem scans_escaped (chars left : List Char) (place : Place) (seen : List Char) :
    Scans (scanText (escaped chars ++ '\"' :: left) place seen) (String.ofList (seen.reverse ++ chars)) left := by
  induction chars generalizing place seen with
  | nil =>
    rw [List.append_nil]
    exact ⟨place.after '\"', by simp [escaped], rfl⟩
  | cons c rest ih =>
    have later (place : Place) := ih place (c :: seen)
    simp only [List.reverse_cons, List.append_assoc, List.singleton_append] at later
    rw [escaped, List.flatMap_cons, List.append_assoc]
    exact scans_escapeChar c later

end Characters

/-- What is left after the opening quote of a quoted text is read up to its closing quote. -/
theorem scans_quote (text : String) (left : List Char) (place : Place) :
    Scans (scanMark '\"' (escaped text.toList ++ '\"' :: left) place) (.text text) left := by
  obtain ⟨stop, shorter, ends⟩ := scans_escaped text.toList left (place.after '\"') []
  refine ⟨stop, shorter, ?_⟩
  simp only [scanMark, ends, Except.map]
  simp

end ResourceKinds.Json
