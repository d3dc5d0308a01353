/-!
Decimal numbers of the language. They have no sign, may start with zeros, and stop at 2^63 - 1.
-/

namespace LittleScript.Numeral

def largest : Nat := 9223372036854775807

def value (digits : List Char) : Nat := Nat.ofDigitChars 10 digits 0

def read? (literal : String) : Option Nat :=
  if value literal.toList ≤ largest then some (value literal.toList) else none

/-- A number's own decimal digits are read back as that number. -/
theorem value_toDigits (n : Nat) : value (Nat.toDigits 10 n) = n :=
  Nat.ofDigitChars_ten_toDigits

theorem read?_eq_some {literal : String} {n : Nat} :
    read? literal = some n ↔ value literal.toList = n ∧ n ≤ largest := by
  unfold read?
  split
  · constructor
    · intro h
      simp only [Option.some.injEq] at h
      subst h
      exact ⟨rfl, ‹_›⟩
    · rintro ⟨rfl, -⟩
      rfl
  · constructor
    · simp
    · rintro ⟨rfl, bound⟩
      contradiction

end LittleScript.Numeral
