import Mathlib.Algebra.Group.Nat.Defs
import ResourceKinds.Proofs.Json.ReadBack

namespace ResourceKinds.Json

theorem isDigit_eq (c : Char) : Cursor.isDigit c = c.isDigit := by
  simp [Cursor.isDigit, Char.isDigit, Char.le_def]

theorem le_ofDigitChars (digits : List Char) (start : Nat) : start ≤ Nat.ofDigitChars 10 digits start := by
  rw [Nat.ofDigitChars_eq_ofDigitChars_zero]
  have positive : 1 ≤ 10 ^ digits.length := Nat.one_le_pow _ _ (by decide)
  have grown := Nat.mul_le_mul_right start positive
  omega

theorem ofDigitChars_lt {digits : List Char} (all : ∀ c ∈ digits, c.isDigit = true) :
    Nat.ofDigitChars 10 digits 0 < 10 ^ digits.length := by
  induction digits with
  | nil => simp
  | cons c rest ih =>
    have later := ih fun other inside => all other (List.mem_cons_of_mem _ inside)
    have digit : c.toNat - '0'.toNat ≤ 9 := by
      have isDigit := all c (List.mem_cons_self ..)
      simp only [Char.isDigit, Bool.and_eq_true, decide_eq_true_eq, UInt32.le_iff_toNat_le] at isDigit
      exact Nat.sub_le_of_le_add isDigit.2
    rw [Nat.ofDigitChars_cons, Nat.mul_zero, Nat.zero_add, Nat.ofDigitChars_eq_ofDigitChars_zero, List.length_cons,
      Nat.pow_succ]
    have bounded := Nat.mul_le_mul_left (10 ^ rest.length) digit
    omega

theorem takeDigits_eq (digits : List Char) (start : Nat) (small : Nat.ofDigitChars 10 digits start < UInt64.size) :
    takeDigits start digits = (Nat.ofDigitChars 10 digits start, 0) := by
  induction digits generalizing start with
  | nil => simp [takeDigits]
  | cons c rest ih =>
    have same : start * 10 + (c.toNat - 48) = 10 * start + (c.toNat - '0'.toNat) := by
      rw [Nat.mul_comm]
      rfl
    rw [Nat.ofDigitChars_cons] at small ⊢
    have below := Nat.lt_of_le_of_lt (le_ofDigitChars rest _) small
    rw [takeDigits, same, if_pos below]
    exact ih _ small

/-- The digits of a number never begin with a zero that could be left out. -/
theorem toDigits_ne_zero_cons (n : Nat) (c : Char) (rest : List Char) : Nat.toDigits 10 n ≠ '0' :: c :: rest := by
  intro same
  have all : ∀ other ∈ c :: rest, other.isDigit = true := fun other inside =>
    Nat.isDigit_of_mem_toDigits (b := 10) (n := n) (by decide) (by decide) (same ▸ List.mem_cons_of_mem _ inside)
  have value : n = Nat.ofDigitChars 10 (c :: rest) 0 := by
    have spelled := Nat.ofDigitChars_ten_toDigits (n := n)
    rw [same, Nat.ofDigitChars_cons] at spelled
    exact spelled.symm
  have short := (Nat.length_toDigits_le_iff (b := 10) (n := n) (by decide) (Nat.succ_pos rest.length)).mpr
    (value ▸ ofDigitChars_lt all)
  rw [same] at short
  simp only [List.length_cons] at short
  omega

theorem digits_append {digits left : List Char} (all : ∀ c ∈ digits, c.isDigit = true) (ends : Ends left)
    (place : Place) :
    ∃ stop shorter, Cursor.digits (digits ++ left) place = (digits, ⟨⟨left, stop⟩, shorter⟩) := by
  induction digits generalizing place with
  | nil =>
    cases left with
    | nil => exact ⟨place, Nat.le_refl _, rfl⟩
    | cons c rest =>
      have other : Cursor.isDigit c = false := by rcases ends with rfl | rfl | rfl <;> rfl
      exact ⟨place, Nat.le_refl _, by simp [Cursor.digits, other]⟩
  | cons c rest ih =>
    have digit : Cursor.isDigit c = true := by rw [isDigit_eq]; exact all c (List.mem_cons_self ..)
    obtain ⟨stop, shorter, same⟩ := ih (fun other inside => all other (List.mem_cons_of_mem _ inside)) (place.after c)
    exact ⟨stop, Nat.le_succ_of_le shorter, by simp [Cursor.digits, digit, same]⟩

/-- Digits up to the end of a value are a number without fraction and exponent. -/
theorem scans_digits {negative : Bool} {leading more left : List Char} {number : Number}
    (all : ∀ c ∈ more, c.isDigit = true)
    (ends : Ends left) (present : leading ++ more ≠ []) (proper : ∀ c rest, leading ++ more ≠ '0' :: c :: rest)
    (value : numberOf? negative (leading ++ more) [] none = some number) (place : Place) :
    Scans (scanNumber negative leading (more ++ left) place) number left := by
  obtain ⟨stop, shorter, scanned⟩ := digits_append all ends place
  have fraction (place : Place) : scanFraction left place = .ok ([], ⟨⟨left, place⟩, Nat.le_refl _⟩) := by
    cases left with
    | nil => rfl
    | cons c rest => rcases ends with rfl | rfl | rfl <;> rfl
  have exponent (place : Place) : scanExponent left place = .ok (none, ⟨⟨left, place⟩, Nat.le_refl _⟩) := by
    cases left with
    | nil => rfl
    | cons c rest => rcases ends with rfl | rfl | rfl <;> rfl
  refine ⟨stop, shorter, ?_⟩
  unfold scanNumber
  generalize Cursor.digits (more ++ left) place = result at scanned ⊢
  subst scanned
  dsimp only
  split
  · exact absurd ‹_› present
  · exact absurd ‹_› (proper _ _)
  · simp only [fraction, exponent, value, bind, Except.bind]

theorem scanMark_digit {c : Char} (digit : c.isDigit = true) (rest : List Char) (place : Place) :
    scanMark c rest place =
      (scanNumber false [c] rest (place.after c)).map fun (n, after) => (.scalar (.number n), after) := by
  unfold scanMark
  split
  all_goals first
    | exact absurd digit (by decide)
    | rw [isDigit_eq, digit, if_pos rfl]

theorem toDigits_spec (n : Nat) : (∀ c ∈ Nat.toDigits 10 n, c.isDigit = true) ∧ Nat.toDigits 10 n ≠ [] ∧
    (n < UInt64.size → takeDigits 0 (Nat.toDigits 10 n) = (n, 0)) := by
  refine ⟨fun c inside => Nat.isDigit_of_mem_toDigits (b := 10) (n := n) (by decide) (by decide) inside,
    Nat.toDigits_ne_nil, fun small => ?_⟩
  have value := Nat.ofDigitChars_ten_toDigits (n := n)
  rw [takeDigits_eq _ 0 (value.symm ▸ small), value]

theorem isBlank_digit {c : Char} (digit : c.isDigit = true) : isBlank c = false := by
  refine Bool.eq_false_iff.mpr fun blank => ?_
  simp only [isBlank, Bool.or_eq_true, decide_eq_true_eq] at blank
  rcases blank with ((rfl | rfl) | rfl) | rfl <;> exact absurd digit (by decide)

theorem legibleNumber_natural {n : Nat} (small : n < UInt64.size) : LegibleNumber (.int n) := by
  obtain ⟨all, nonempty, taken⟩ := toDigits_spec n
  have text : (numberText (.int n)).toList = Nat.toDigits 10 n := by
    simp [numberText, Int.repr_eq_if]
  obtain ⟨c, rest, spelled⟩ := List.exists_cons_of_ne_nil nonempty
  rw [spelled] at all
  have digit := all c (List.mem_cons_self ..)
  refine ⟨c, rest, text.trans spelled, ?_, fun left place ends => ?_⟩
  · exact isBlank_digit digit
  · have value : numberOf? false ([c] ++ rest) [] none = some (.int n) := by
      rw [List.singleton_append, ← spelled, numberOf?, taken small]
      rfl
    have proper (d : Char) (others : List Char) : [c] ++ rest ≠ '0' :: d :: others := by
      rw [List.singleton_append, ← spelled]
      exact toDigits_ne_zero_cons n d others
    obtain ⟨stop, shorter, scanned⟩ := scans_digits (fun other inside => all other (List.mem_cons_of_mem _ inside)) ends
      (List.cons_ne_nil _ _) proper value (place.after c)
    refine ⟨stop, shorter, ?_⟩
    rw [scanMark_digit digit, scanned]
    rfl

theorem legibleNumber_negative {n : Nat} (positive : 0 < n) (small : (n : Int) ≤ Int64.maxValue.toInt + 1) :
    LegibleNumber (.int (-n)) := by
  obtain ⟨all, nonempty, taken⟩ := toDigits_spec n
  have bounded : n < UInt64.size := by
    have limit : Int64.maxValue.toInt + 1 < (UInt64.size : Int) := by decide
    omega
  have text : (numberText (.int (-n))).toList = '-' :: Nat.toDigits 10 n := by
    have signed : n ≠ 0 := Nat.ne_of_gt positive
    simp [numberText, Int.repr_eq_if, signed]
  refine ⟨'-', Nat.toDigits 10 n, text, rfl, fun left place ends => ?_⟩
  have value : numberOf? true ([] ++ Nat.toDigits 10 n) [] none = some (.int (-n)) := by
    have notDouble : (n = 0 || Int64.maxValue.toInt + 1 < (n : Int)) = false := by
      simp only [Bool.or_eq_false_iff, decide_eq_false_iff_not]
      omega
    rw [List.nil_append, numberOf?, taken bounded]
    simp only [Bool.not_true, Bool.false_eq_true, if_false, notDouble]
  obtain ⟨stop, shorter, scanned⟩ := scans_digits all ends nonempty
    (fun d others => toDigits_ne_zero_cons n d others) value (place.after '-')
  refine ⟨stop, shorter, ?_⟩
  simp only [scanMark, scanned]
  rfl

/-- Integers of 64 bits, with or without sign, read back. -/
theorem legibleNumber_int {n : Int} (low : Int64.minValue.toInt ≤ n) (high : n < UInt64.size) :
    LegibleNumber (.int n) := by
  cases n with
  | ofNat n => exact legibleNumber_natural (Int.ofNat_lt.mp high)
  | negSucc n =>
    have bound : Int64.minValue.toInt = -(Int64.maxValue.toInt + 1) := by decide
    have legible := legibleNumber_negative (n := n + 1) (Nat.succ_pos n) (by omega)
    exact legible

end ResourceKinds.Json
