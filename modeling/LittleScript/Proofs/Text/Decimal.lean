import Mathlib.Data.Nat.Digits.Defs
import LittleScript.Numeral
import LittleScript.Proofs.Token.Lexical

/-!
Decimal numerals of any length. The number that is accumulated digit by digit is the one that the digits denote
by their positions, and printing it drops the zeros in front and nothing else.
-/

namespace LittleScript.Numeral

def digit (c : Char) : Nat := c.toNat - '0'.toNat

/-- The number that digits denote by their positions: the last one counts once, and each of the others ten times
as much as the one behind it. -/
def positional (digits : List Char) : Nat := Nat.ofDigits 10 (digits.reverse.map digit)

/-- The digits without zeros in front. If they are all zeros, one is left. -/
def withoutZeros (digits : List Char) : List Char :=
  match digits.dropWhile (· = '0') with
  | [] => ['0']
  | first :: rest => first :: rest

private theorem digit_eq (c : Char) : digit c = c.toNat - 48 := rfl

private theorem digit_lt {c : Char} (decimal : c.isDigit = true) : digit c < 10 := by
  have range := toNat_of_isDigit decimal
  rw [digit_eq]
  omega

/-- A digit is printed as itself. -/
private theorem digitChar_digit {c : Char} (decimal : c.isDigit = true) : Nat.digitChar (digit c) = c := by
  have range := toNat_of_isDigit decimal
  apply Char.toNat_inj.1
  rw [Nat.toNat_digitChar_of_lt_ten (digit_lt decimal), digit_eq]
  omega

private theorem digit_pos {c : Char} (decimal : c.isDigit = true) (proper : c ≠ '0') : 0 < digit c := by
  apply Nat.pos_of_ne_zero
  intro zero
  have printed := digitChar_digit decimal
  rw [zero] at printed
  exact proper printed.symm

/-- The accumulated number is the one that the digits denote. -/
theorem value_eq_positional (digits : List Char) : value digits = positional digits := by
  induction digits with
  | nil => rfl
  | cons c digits ih =>
    have accumulated : value (c :: digits) = 10 ^ digits.length * digit c + value digits := by
      rw [value, Nat.ofDigitChars_cons, Nat.ofDigitChars_eq_ofDigitChars_zero, Nat.mul_zero, Nat.zero_add]
      rfl
    have placed : positional (c :: digits) = positional digits + 10 ^ digits.length * digit c := by
      rw [positional, List.reverse_cons, List.map_append, Nat.ofDigits_append, List.length_map,
        List.length_reverse, List.map_singleton, Nat.ofDigits_singleton]
      rfl
    rw [accumulated, placed, ih, Nat.add_comm]

/-- What has been accumulated is printed in front of the digits that are still to come. -/
private theorem toDigits_ofDigitChars {digits : List Char} {begun : Nat} (positive : 0 < begun)
    (all : ∀ c ∈ digits, c.isDigit = true) :
    Nat.toDigits 10 (Nat.ofDigitChars 10 digits begun) = Nat.toDigits 10 begun ++ digits := by
  induction digits generalizing begun with
  | nil => rw [Nat.ofDigitChars_nil, List.append_nil]
  | cons c digits ih =>
    obtain ⟨decimal, others⟩ := List.forall_mem_cons.1 all
    have next : Nat.toDigits 10 (10 * begun + digit c) = Nat.toDigits 10 begun ++ [c] := by
      rw [← Nat.toDigits_append_toDigits (by decide) positive (digit_lt decimal),
        Nat.toDigits_of_lt_base (digit_lt decimal), digitChar_digit decimal]
    rw [Nat.ofDigitChars_cons]
    calc Nat.toDigits 10 (Nat.ofDigitChars 10 digits (10 * begun + digit c))
      _ = Nat.toDigits 10 (10 * begun + digit c) ++ digits := ih (by omega) others
      _ = Nat.toDigits 10 begun ++ c :: digits := by rw [next, List.append_assoc, List.singleton_append]

/-- A number is printed as the digits that denote it, without zeros in front. -/
private theorem toDigits_value {digits : List Char} (all : ∀ c ∈ digits, c.isDigit = true) :
    Nat.toDigits 10 (value digits) = withoutZeros digits := by
  induction digits with
  | nil => rfl
  | cons c digits ih =>
    obtain ⟨decimal, others⟩ := List.forall_mem_cons.1 all
    by_cases zero : c = '0'
    · have same : value (c :: digits) = value digits := by
        subst zero
        exact Nat.ofDigitChars_cons
      rw [same, ih others, withoutZeros, withoutZeros, List.dropWhile_cons_of_pos (by simpa using zero)]
    · have first : value (c :: digits) = Nat.ofDigitChars 10 digits (digit c) := by
        rw [value, Nat.ofDigitChars_cons, Nat.mul_zero, Nat.zero_add]
        rfl
      rw [first, toDigits_ofDigitChars (digit_pos decimal zero) others, Nat.toDigits_of_lt_base (digit_lt decimal),
        digitChar_digit decimal, withoutZeros, List.dropWhile_cons_of_neg (by simpa using zero)]
      rfl

/-- The digits that are left denote the same number. -/
theorem positional_withoutZeros {digits : List Char} (all : ∀ c ∈ digits, c.isDigit = true) :
    positional (withoutZeros digits) = positional digits := by
  rw [← toDigits_value all, ← value_eq_positional, value_toDigits, value_eq_positional]

theorem toString_positional {digits : List Char} (all : ∀ c ∈ digits, c.isDigit = true) :
    toString (positional digits) = String.ofList (withoutZeros digits) := by
  rw [Nat.toString_eq_ofList_toDigits, ← value_eq_positional, toDigits_value all]

/-- A literal is read as the number that its digits denote, exactly if that is less than `2 ^ 63`. -/
theorem read?_eq_positional (literal : String) :
    read? literal =
      if positional literal.toList ≤ 2 ^ 63 - 1 then some (positional literal.toList) else none := by
  have bound : largest = 2 ^ 63 - 1 := by decide
  rw [read?, value_eq_positional, bound]

end LittleScript.Numeral
