import LibEvRpc.Config.ConfigParser
import Mathlib.Data.Nat.Digits.Lemmas

/-! # Numbers of a configuration

A number of a configuration is decimal, octal behind a zero, or hexadecimal behind `0x`, with a sign in
front of it, and ends at the first byte that is no digit of its base. It is read into a `long`, where a
number that is too large is replaced by its nearest one, and is then cut to 32 bits.
-/

namespace LibEvRpc

open Scanf

/-! ## Numerals -/

def digitChar (digit : ℕ) : UInt8 := UInt8.ofNat (if digit < 10 then digit + 48 else digit + 87)

/-- The digits of a number, which are `0` for zero. -/
def numeral (base number : ℕ) : Bytes :=
  if number = 0 then [Ascii.zero] else ((Nat.digits base number).map digitChar).reverse

inductive NumberForm where
  | decimal
  | octal
  | hexadecimal
deriving DecidableEq

def NumberForm.base : NumberForm → ℕ
  | .decimal => 10
  | .octal => 8
  | .hexadecimal => 16

/-- What is in front of the digits. -/
def NumberForm.mark : NumberForm → Bytes
  | .decimal => []
  | .octal => [Ascii.zero]
  | .hexadecimal => [Ascii.zero, 120]

def signText (negative : Bool) : Bytes := if negative then [45] else []

def signed (negative : Bool) (number : ℕ) : ℤ := if negative then -number else number

/-! ## Reading digits -/

theorem digitValue_digitChar {digit : ℕ} (bound : digit < 16) : digitValue (digitChar digit) = digit := by
  interval_cases digit <;> rfl

/-- The digits of a number, from the last one on, give the number. -/
theorem foldr_digits {base : ℕ} {digits : List ℕ} (bounded : ∀ digit ∈ digits, digit < 16) :
    digits.foldr (fun digit number => number * base + digitValue (digitChar digit)) 0 =
      Nat.ofDigits base digits := by
  induction digits with
  | nil => rfl
  | cons digit digits ih =>
    obtain ⟨first, bounded⟩ := List.forall_mem_cons.mp bounded
    rw [List.foldr_cons, ih bounded, digitValue_digitChar first, Nat.ofDigits_cons, mul_comm, add_comm]

/-- Digits are read up to the first byte that is none. -/
theorem readDigits_append {base : ℕ} {digits : List ℕ} (small : base ≤ 16)
    (bounded : ∀ digit ∈ digits, digit < base) {rest : Bytes}
    (ends : ∀ char ∈ rest.head?, base ≤ digitValue char) :
    readDigits base ((digits.map digitChar).reverse ++ rest) = Nat.ofDigits base digits := by
  have accepted : ∀ char ∈ (digits.map digitChar).reverse, decide (digitValue char < base) = true := by
    intro char member
    obtain ⟨digit, inside, rfl⟩ := List.mem_map.mp (List.mem_reverse.mp member)
    have bound := bounded digit inside
    rw [digitValue_digitChar (by omega)]
    exact decide_eq_true bound
  have stops : rest.takeWhile (fun char => decide (digitValue char < base)) = [] := by
    cases rest with
    | nil => rfl
    | cons char rest =>
      have outside := ends char rfl
      rw [List.takeWhile_cons, if_neg (by simpa using outside)]
  rw [readDigits, List.takeWhile_append_of_pos accepted, stops, List.append_nil, List.foldl_reverse,
    List.foldr_map]
  exact foldr_digits fun digit member => (bounded digit member).trans_le small

/-- A numeral with something behind it is read as its number. -/
theorem readDigits_numeral (form : NumberForm) (number : ℕ) {rest : Bytes}
    (ends : ∀ char ∈ rest.head?, form.base ≤ digitValue char) :
    readDigits form.base (numeral form.base number ++ rest) = number := by
  have small : 1 < form.base ∧ form.base ≤ 16 := by cases form <;> decide
  rw [numeral]
  split
  · next zero =>
    have digits : ∀ digit ∈ [0], digit < form.base := by
      intro digit member
      rw [List.mem_singleton.mp member]
      exact Nat.zero_lt_of_lt small.1
    rw [zero]
    exact readDigits_append small.2 digits ends
  · have bounded : ∀ digit ∈ Nat.digits form.base number, digit < form.base :=
      fun digit member => Nat.digits_lt_base small.1 member
    rw [readDigits_append small.2 bounded ends, Nat.ofDigits_digits]

/-- A numeral starts with a digit, which is not zero unless the number is. -/
theorem exists_numeral (form : NumberForm) (number : ℕ) :
    ∃ digit rest, numeral form.base number = digitChar digit :: rest ∧ digit < form.base ∧
      (digit = 0 → number = 0 ∧ rest = []) := by
  have small : 1 < form.base := by cases form <;> decide
  rw [numeral]
  split
  · next zero => exact ⟨0, [], rfl, Nat.zero_lt_of_lt small, fun _ => ⟨zero, rfl⟩⟩
  · next positive =>
    have nonempty : Nat.digits form.base number ≠ [] := Nat.digits_ne_nil_iff_ne_zero.mpr positive
    have leading := Nat.getLast_digit_ne_zero form.base positive
    have split := congrArg (fun digits => (digits.map digitChar).reverse)
      (List.dropLast_append_getLast nonempty)
    refine ⟨_, ((Nat.digits form.base number).dropLast.map digitChar).reverse, split.symm.trans ?_,
      Nat.digits_lt_base small (List.getLast_mem nonempty), fun zero => absurd zero leading⟩
    rw [List.map_append, List.reverse_append]
    rfl

/-! ## Finding the base -/

theorem numberBase_hexadecimal {char : UInt8} (digit : digitValue char < 16) (rest : Bytes) :
    numberBase (Ascii.zero :: 120 :: char :: rest) = (16, char :: rest) := by
  rw [numberBase, if_pos ⟨rfl, .inl rfl, digit⟩]

theorem numberBase_octal {rest : Bytes} (unmarked : ∀ char ∈ rest.head?, char ≠ 120 ∧ char ≠ 88) :
    numberBase (Ascii.zero :: rest) = (8, Ascii.zero :: rest) := by
  match rest with
  | [] => rfl
  | [_] => rfl
  | x :: digit :: rest =>
    obtain ⟨lower, upper⟩ := unmarked x rfl
    rw [numberBase, if_neg fun marked => marked.2.1.elim lower upper, if_pos rfl]

theorem numberBase_decimal {char : UInt8} (other : char ≠ Ascii.zero) (rest : Bytes) :
    numberBase (char :: rest) = (10, char :: rest) := by
  match rest with
  | [] => exact if_neg other
  | [_] => exact if_neg other
  | x :: digit :: rest => rw [numberBase, if_neg fun marked => other marked.1, if_neg other]

/-- A leading zero does not change a number. -/
theorem readDigits_zero {base : ℕ} (positive : 0 < base) (digits : Bytes) :
    readDigits base (Ascii.zero :: digits) = readDigits base digits := by
  have accepted : decide (digitValue Ascii.zero < base) = true := decide_eq_true positive
  rw [readDigits, List.takeWhile_cons, if_pos accepted, List.foldl_cons, Nat.zero_mul]
  rfl

theorem digitChar_facts {digit : ℕ} (bound : digit < 16) :
    digitChar digit ≠ 120 ∧ digitChar digit ≠ 88 ∧ digitChar digit ≠ 45 ∧ digitChar digit ≠ 43 ∧
      isSpace (digitChar digit) = false ∧ (digitChar digit = Ascii.zero → digit = 0) := by
  interval_cases digit <;> decide

/-- What is in front of a numeral gives its base. -/
theorem readDigits_numberBase (form : NumberForm) (number : ℕ) {rest : Bytes}
    (ends : ∀ char ∈ rest.head?, form.base ≤ digitValue char ∧ char ≠ 120 ∧ char ≠ 88) :
    let text := form.mark ++ numeral form.base number ++ rest
    readDigits (numberBase text).1 (numberBase text).2 = number := by
  have read := readDigits_numeral form number fun char head => (ends char head).1
  obtain ⟨digit, others, same, bound, leading⟩ := exists_numeral form number
  have facts := @digitChar_facts digit (bound.trans_le (by cases form <;> decide))
  rw [same] at read ⊢
  cases form with
  | decimal =>
    by_cases zero : digit = 0
    · obtain ⟨rfl, rfl⟩ := leading zero
      have none := @readDigits_append 8 [] (by decide) (by simp) rest fun char head =>
        le_trans (by decide) (ends char head).1
      subst zero
      change readDigits (numberBase (Ascii.zero :: rest)).1 (numberBase (Ascii.zero :: rest)).2 = 0
      rw [numberBase_octal fun char head => (ends char head).2, readDigits_zero (Nat.zero_lt_succ 7)]
      exact none
    · dsimp only [NumberForm.mark]
      rw [List.nil_append, List.cons_append, numberBase_decimal fun same => zero (facts.2.2.2.2.2 same)]
      exact read
  | octal =>
    have unmarked : ∀ char ∈ (digitChar digit :: others ++ rest).head?, char ≠ 120 ∧ char ≠ 88 := by
      rintro char ⟨⟩
      exact ⟨facts.1, facts.2.1⟩
    dsimp only [NumberForm.mark]
    rw [List.append_assoc, List.singleton_append, numberBase_octal unmarked,
      readDigits_zero (Nat.zero_lt_succ 7)]
    exact read
  | hexadecimal =>
    have hexadecimal : digitValue (digitChar digit) < 16 := (digitValue_digitChar bound).trans_lt bound
    dsimp only [NumberForm.mark]
    rw [List.append_assoc, List.cons_append, List.singleton_append, List.cons_append,
      numberBase_hexadecimal hexadecimal]
    exact read

/-! ## Reading a number -/

/-- A number in one of its forms, with something behind it. -/
def numberText (form : NumberForm) (negative : Bool) (number : ℕ) (rest : Bytes) : Bytes :=
  signText negative ++ (form.mark ++ numeral form.base number ++ rest)

def nearestLong (number : ℤ) : ℤ := max (-2 ^ 63) (min number (2 ^ 63 - 1))

/-- Without its sign, a number starts with a digit. -/
theorem exists_front (form : NumberForm) (number : ℕ) (rest : Bytes) :
    ∃ first others, form.mark ++ numeral form.base number ++ rest = first :: others ∧
      isSpace first = false ∧ first ≠ 45 ∧ first ≠ 43 := by
  cases form with
  | decimal =>
    obtain ⟨digit, others, same, bound, _⟩ := exists_numeral .decimal number
    have facts := @digitChar_facts digit (bound.trans_le (by decide))
    exact ⟨digitChar digit, others ++ rest, by rw [same]; rfl, facts.2.2.2.2.1, facts.2.2.1, facts.2.2.2.1⟩
  | octal => exact ⟨_, _, rfl, by decide⟩
  | hexadecimal => exact ⟨_, _, rfl, by decide⟩

theorem strtol_numberText (form : NumberForm) (negative : Bool) (number : ℕ) {rest : Bytes}
    (ends : ∀ char ∈ rest.head?, form.base ≤ digitValue char ∧ char ≠ 120 ∧ char ≠ 88) :
    strtol (numberText form negative number rest) =
      Int64.ofInt (nearestLong (signed negative number)) := by
  have magnitude := readDigits_numberBase form number ends
  obtain ⟨first, others, same, solid, unsigned, unmarked⟩ := exists_front form number rest
  dsimp only at magnitude
  rw [numberText, strtol]
  rw [same] at magnitude ⊢
  cases negative with
  | false =>
    have front : signText false ++ first :: others = first :: others := rfl
    rw [front, List.dropWhile_cons_of_neg (Bool.eq_false_iff.mp solid)]
    dsimp only
    rw [if_neg unsigned, if_neg unmarked, magnitude, signed, nearestLong]
    congr 1
    rw [if_neg Bool.false_ne_true]
    omega
  | true =>
    have front : signText true ++ first :: others = 45 :: first :: others := rfl
    rw [front, List.dropWhile_cons_of_neg (by decide)]
    dsimp only
    rw [if_pos rfl, magnitude, signed, nearestLong]
    congr 1
    rw [if_pos rfl]
    omega

/-- `iniparser_getint` reads a number in any of its forms: as the nearest `long` cut to 32 bits, and
so as it is when it fits into them. -/
theorem Dictionary.getInt_numberText {d : Dictionary} {key : Bytes} {form : NumberForm} {negative : Bool}
    {number : ℕ} {rest : Bytes}
    (found : d.getString key = some (some (numberText form negative number rest)))
    (ends : ∀ char ∈ rest.head?, form.base ≤ digitValue char ∧ char ≠ 120 ∧ char ≠ 88)
    (notFound : Int32) :
    d.getInt key notFound = some (Int32.ofInt (nearestLong (signed negative number))) ∧
      (-2 ^ 31 ≤ signed negative number → signed negative number < 2 ^ 31 →
        (d.getInt key notFound).map Int32.toInt = some (signed negative number)) := by
  have cut : d.getInt key notFound = some (Int32.ofInt (nearestLong (signed negative number))) := by
    rw [getInt, found]
    dsimp only
    rw [strtol_numberText form negative number ends]
    exact congrArg some Int64.toInt32_ofInt
  refine ⟨cut, fun lower upper => ?_⟩
  have near : nearestLong (signed negative number) = signed negative number := by
    rw [nearestLong]
    omega
  rw [cut, near, Option.map_some, Int32.toInt_ofInt_of_le lower upper]

/-- `-0x10s` is read as -16. -/
theorem Dictionary.getInt_numberText_seconds :
    ∃ d, (new 0).set [97] (some [45, 48, 120, 49, 48, 115]) = some d ∧ d.getInt [65] 0 = some (-16) := by
  have found : ((new 0).set [97] (some [45, 48, 120, 49, 48, 115])).bind (fun d => d.getString [65]) =
      some (some (numberText .hexadecimal true 16 [115])) := by
    decide +kernel
  have ends : ∀ char ∈ ([115] : Bytes).head?, 16 ≤ digitValue char ∧ char ≠ 120 ∧ char ≠ 88 := by
    rintro char ⟨⟩
    decide
  obtain ⟨d, set, found⟩ := Option.bind_eq_some_iff.mp found
  exact ⟨d, set, (getInt_numberText found ends 0).1⟩

end LibEvRpc
