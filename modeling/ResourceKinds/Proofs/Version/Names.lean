import Mathlib.Data.Nat.Digits.Defs
import ResourceKinds.Version
import ResourceKinds.Proofs.Json.IntegerText

namespace ResourceKinds.KubeVersion

/-- The numbers from 1 on that 32 bits hold. -/
def Fits (n : Nat) : Prop := 1 ≤ n ∧ n ≤ 2 ^ 32 - 1

/-- Decimal digits, the first of them not zero, and the number that they stand for, which has to fit. -/
structure Numeral (spelling : List Char) (n : Nat) : Prop where
  digits : ∀ c ∈ spelling, c.isDigit = true
  proper : spelling.head? ≠ some '0'
  value : Nat.ofDigits 10 (spelling.reverse.map digitValue) = n
  fits : Fits n

/-- A numeral after `v`, alone or followed by `alpha` or `beta` and another numeral. -/
inductive IsName : List Char → Prop
  | stable {major m} (first : Numeral major m) : IsName ('v' :: major)
  | unstable {label : String} {major minor m n} (known : label = "alpha" ∨ label = "beta") (first : Numeral major m)
      (second : Numeral minor n) : IsName ('v' :: (major ++ (label.toList ++ minor)))

/-- The versions that have names. Only alpha and beta releases are counted. -/
structure InRange (version : KubeVersion) : Prop where
  major : Fits version.major
  minor : if version.stability = .stable then version.minor = 0 else Fits version.minor

theorem isDigit_eq (c : Char) : isDigit c = c.isDigit := by
  simp [isDigit, Char.isDigit, Char.le_def]

section Digits

variable {c : Char} (digit : c.isDigit = true)

include digit

theorem toNat_of_isDigit : 48 ≤ c.toNat ∧ c.toNat ≤ 57 := by
  simp only [Char.isDigit, Bool.and_eq_true, decide_eq_true_eq, ge_iff_le, UInt32.le_iff_toNat_le] at digit
  exact digit

theorem digitValue_lt : digitValue c < 10 := by
  have zero : '0'.toNat = 48 := rfl
  have range := toNat_of_isDigit digit
  unfold digitValue
  omega

theorem digitChar_digitValue : (digitValue c).digitChar = c := by
  have zero : '0'.toNat = 48 := rfl
  have range := toNat_of_isDigit digit
  refine Char.toNat_inj.mp ?_
  rw [Nat.toNat_digitChar_of_lt_ten (digitValue_lt digit), digitValue]
  omega

theorem digitValue_pos (proper : c ≠ '0') : 0 < digitValue c := by
  refine Nat.pos_of_ne_zero fun zero => proper ?_
  rw [← digitChar_digitValue digit, zero]
  rfl

end Digits

theorem numberOf_eq (spelling : List Char) :
    numberOf spelling = Nat.ofDigits 10 (spelling.reverse.map digitValue) := by
  rw [Nat.ofDigits_eq_foldr, List.foldr_map, List.foldr_reverse]
  refine congrArg (fun step => spelling.foldl step 0) (funext fun n => funext fun c => ?_)
  simp [Nat.mul_comm, Nat.add_comm]

theorem numberOf_toDigits (n : Nat) : numberOf (Nat.toDigits 10 n) = n := by
  have same (spelling : List Char) : numberOf spelling = Nat.ofDigitChars 10 spelling 0 := by
    simp only [numberOf, Nat.ofDigitChars, digitValue, Nat.mul_comm]
  rw [same, Nat.ofDigitChars_ten_toDigits]

theorem numberOf_pos {first : Char} (digit : first.isDigit = true) (proper : first ≠ '0') (rest : List Char) :
    0 < numberOf (first :: rest) := by
  have leading := digitValue_pos digit proper
  rw [numberOf_eq, List.map_reverse, List.map_cons, Nat.ofDigits_reverse_cons]
  positivity

namespace Numeral

variable {spelling : List Char} {n : Nat}

/-- The digits of the number, from the last one on, are the values of the digits that spell it. -/
theorem digits_eq (numeral : Numeral spelling n) : Nat.digits 10 n = spelling.reverse.map digitValue := by
  rw [← numeral.value]
  refine Nat.digits_ofDigits 10 (by decide) _ (fun value inside => ?_) fun nonempty last => ?_
  · obtain ⟨c, among, rfl⟩ := List.mem_map.mp inside
    exact digitValue_lt (numeral.digits c (List.mem_reverse.mp among))
  · cases spelling with
    | nil => exact nonempty rfl
    | cons first rest =>
      have proper : first ≠ '0' := fun zero => numeral.proper (congrArg some zero)
      have positive := digitValue_pos (numeral.digits first (List.mem_cons_self ..)) proper
      exact Nat.ne_of_gt positive (by simpa using last)

theorem spelling_eq (numeral : Numeral spelling n) : spelling = ((Nat.digits 10 n).map Nat.digitChar).reverse := by
  rw [numeral.digits_eq, List.map_map, List.map_reverse, List.reverse_reverse]
  calc
    spelling = spelling.map id := spelling.map_id.symm
    _ = spelling.map (Nat.digitChar ∘ digitValue) :=
      List.map_congr_left fun c inside => (digitChar_digitValue (numeral.digits c inside)).symm

/-- A number has one spelling. -/
theorem unique {other : List Char} (numeral : Numeral spelling n) (same : Numeral other n) : spelling = other :=
  numeral.spelling_eq.trans same.spelling_eq.symm

end Numeral

theorem numeral_toDigits {n : Nat} (fits : Fits n) : Numeral (Nat.toDigits 10 n) n where
  digits := (Json.toDigits_spec n).1
  proper := by
    intro zero
    obtain ⟨rest, spelled⟩ := List.head?_eq_some_iff.mp zero
    cases rest with
    | nil =>
      have value := numberOf_toDigits n
      rw [spelled] at value
      exact Nat.ne_of_gt fits.1 value.symm
    | cons c rest => exact Json.toDigits_ne_zero_cons n c rest spelled
  value := by rw [← numberOf_eq, numberOf_toDigits]
  fits := fits

theorem numeral_iff {spelling : List Char} {n : Nat} :
    Numeral spelling n ↔ Fits n ∧ spelling = Nat.toDigits 10 n := by
  constructor
  · intro numeral
    exact ⟨numeral.fits, numeral.unique (numeral_toDigits numeral.fits)⟩
  · rintro ⟨fits, rfl⟩
    exact numeral_toDigits fits

theorem positive?_eq_some {spelling : List Char} {n : Nat} : positive? spelling = some n ↔ Numeral spelling n := by
  cases spelling with
  | nil =>
    constructor
    · nofun
    · intro numeral
      cases Nat.not_lt_zero _ (numeral.value ▸ numeral.fits.1)
  | cons first rest =>
    have size : UInt32.size = 2 ^ 32 := rfl
    simp only [positive?, Option.ite_none_right_eq_some, Option.some.injEq, Bool.and_eq_true, decide_eq_true_eq,
      List.all_eq_true, isDigit_eq]
    constructor
    · rintro ⟨⟨⟨proper, digits⟩, small⟩, rfl⟩
      have positive := numberOf_pos (digits first (List.mem_cons_self ..)) proper rest
      exact ⟨digits, fun zero => proper (Option.some.inj zero), (numberOf_eq _).symm, by unfold Fits; omega⟩
    · intro numeral
      have value := (numberOf_eq (first :: rest)).trans numeral.value
      have bounded := numeral.fits.2
      exact ⟨⟨⟨fun zero => numeral.proper (congrArg some zero), numeral.digits⟩, by omega⟩, value⟩

theorem takeWhile_digits {spelling tail : List Char} (digits : ∀ c ∈ spelling, c.isDigit = true)
    (ends : ∀ c, tail.head? = some c → c.isDigit = false) :
    (spelling ++ tail).takeWhile isDigit = spelling ∧ (spelling ++ tail).dropWhile isDigit = tail := by
  simp only [← isDigit_eq] at digits ends
  rw [List.takeWhile_append_of_pos digits, List.dropWhile_append_of_pos digits]
  cases tail with
  | nil => simp
  | cons c rest => simp [ends c rfl]

/-- The spelling of what follows the major number. -/
def suffix (stability : Stability) (minor : Nat) : List Char :=
  if stability = .stable then [] else stability.name.toList ++ Nat.toDigits 10 minor

theorem toList_render (version : KubeVersion) : version.render.toList =
    'v' :: (Nat.toDigits 10 version.major ++ suffix version.stability version.minor) := by
  obtain ⟨major, stability, minor⟩ := version
  cases stability <;> simp [render, suffix]

theorem map_positive? {spelling : List Char} {label stability : Stability} {minor : Nat} :
    (positive? spelling).map (label, ·) = some (stability, minor) ↔
      label = stability ∧ Fits minor ∧ spelling = Nat.toDigits 10 minor := by
  simp only [Option.map_eq_some_iff, Prod.mk.injEq, ← numeral_iff, ← positive?_eq_some]
  constructor
  · rintro ⟨n, found, same, rfl⟩
    exact ⟨same, found⟩
  · rintro ⟨same, found⟩
    exact ⟨minor, found, same, rfl⟩

theorem release?_eq_some {tail : List Char} {stability : Stability} {minor : Nat} :
    release? tail = some (stability, minor) ↔
      (if stability = .stable then minor = 0 else Fits minor) ∧ tail = suffix stability minor := by
  constructor
  · intro released
    unfold release? at released
    split at released
    · cases released
      exact ⟨rfl, rfl⟩
    · obtain ⟨rfl, fits, rfl⟩ := map_positive?.mp released
      exact ⟨fits, rfl⟩
    · obtain ⟨rfl, fits, rfl⟩ := map_positive?.mp released
      exact ⟨fits, rfl⟩
    · cases released
  · rintro ⟨range, rfl⟩
    cases stability with
    | stable => exact congrArg (fun n => some (Stability.stable, n)) range.symm
    | alpha => exact map_positive?.mpr ⟨rfl, range, rfl⟩
    | beta => exact map_positive?.mpr ⟨rfl, range, rfl⟩

theorem suffix_ends (stability : Stability) (minor : Nat) (c : Char) (first : (suffix stability minor).head? = some c) :
    c.isDigit = false := by
  cases stability <;> cases first <;> rfl

theorem parseChars?_eq_some {name : List Char} {version : KubeVersion} : parseChars? name = some version ↔
    version.InRange ∧ name = 'v' :: (Nat.toDigits 10 version.major ++ suffix version.stability version.minor) := by
  obtain ⟨major, stability, minor⟩ := version
  constructor
  · intro parsed
    unfold parseChars? at parsed
    split at parsed
    · rename_i rest
      simp only [Option.bind_eq_bind, Option.bind_eq_some_iff, Option.pure_def, Option.some.injEq,
        KubeVersion.mk.injEq] at parsed
      obtain ⟨_, first, ⟨_, _⟩, released, rfl, rfl, rfl⟩ := parsed
      obtain ⟨fits, spelled⟩ := numeral_iff.mp (positive?_eq_some.mp first)
      obtain ⟨range, tail⟩ := release?_eq_some.mp released
      refine ⟨⟨fits, range⟩, congrArg _ ?_⟩
      rw [← spelled, ← tail, List.takeWhile_append_dropWhile]
    · cases parsed
  · rintro ⟨⟨fits, range⟩, rfl⟩
    have numeral := numeral_toDigits fits
    obtain ⟨digits, tail⟩ := takeWhile_digits numeral.digits (suffix_ends stability minor)
    simp only [parseChars?, digits, tail, positive?_eq_some.mpr numeral, release?_eq_some.mpr ⟨range, rfl⟩]
    rfl

/-- A name is parsed to the version that is written like that, and to no other. -/
theorem parse?_eq_some {name : String} {version : KubeVersion} :
    parse? name = some version ↔ version.InRange ∧ version.render = name := by
  rw [parse?, parseChars?_eq_some, ← toList_render, String.toList_inj, eq_comm (a := name)]

theorem isName_iff {name : List Char} : IsName name ↔ ∃ version : KubeVersion, version.InRange ∧
    name = 'v' :: (Nat.toDigits 10 version.major ++ suffix version.stability version.minor) := by
  constructor
  · intro named
    cases named with
    | @stable major m first =>
      obtain ⟨fits, rfl⟩ := numeral_iff.mp first
      exact ⟨⟨m, .stable, 0⟩, ⟨fits, rfl⟩, by simp [suffix]⟩
    | @unstable label major minor m n known first second =>
      obtain ⟨fits, rfl⟩ := numeral_iff.mp first
      obtain ⟨fitsToo, rfl⟩ := numeral_iff.mp second
      rcases known with rfl | rfl
      · exact ⟨⟨m, .alpha, n⟩, ⟨fits, fitsToo⟩, rfl⟩
      · exact ⟨⟨m, .beta, n⟩, ⟨fits, fitsToo⟩, rfl⟩
  · rintro ⟨⟨m, stability, n⟩, ⟨fits, range⟩, rfl⟩
    cases stability with
    | stable => simpa [suffix] using IsName.stable (numeral_toDigits fits)
    | alpha => exact .unstable (.inl rfl) (numeral_toDigits fits) (numeral_toDigits range)
    | beta => exact .unstable (.inr rfl) (numeral_toDigits fits) (numeral_toDigits range)

/-- Exactly the names of versions are parsed, each to the one version that it is the text of; and each version in range
is parsed from its text. -/
theorem names_and_versions : (∀ name : String, (∃ version, parse? name = some version) ↔ IsName name.toList) ∧
    ∀ name version, parse? name = some version ↔ version.InRange ∧ version.render = name := by
  refine ⟨fun name => ?_, fun name version => parse?_eq_some⟩
  rw [isName_iff]
  exact exists_congr fun version => parseChars?_eq_some

example : parse? "v4294967295beta1" = some ⟨4294967295, .beta, 1⟩ ∧ parse? "v4294967296" = none ∧
    parse? "v1beta01" = none := by
  cbv

end ResourceKinds.KubeVersion
