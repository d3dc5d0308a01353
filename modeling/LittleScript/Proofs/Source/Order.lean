import Mathlib.Order.Defs.LinearOrder
import LittleScript.Source.Location

/-!
The reading order of places. Whatever is read moves on in it.
-/

namespace LittleScript.Location

protected def le (a b : Location) : Prop :=
  a.line < b.line ∨ a.line = b.line ∧ a.column ≤ b.column

instance : LE Location := ⟨Location.le⟩

private theorem le_def {a b : Location} : a ≤ b ↔ a.line < b.line ∨ a.line = b.line ∧ a.column ≤ b.column :=
  .rfl

private theorem lt_def {a b : Location} : a < b ↔ a.line < b.line ∨ a.line = b.line ∧ a.column < b.column :=
  .rfl

instance : LinearOrder Location where
  le_refl a := .inr ⟨rfl, Nat.le_refl _⟩
  le_trans a b c := by
    simp only [le_def]
    omega
  le_antisymm a b h h' := by
    rw [le_def] at h h'
    have line : a.line = b.line := by omega
    have column : a.column = b.column := by omega
    cases a
    cases b
    exact congr (congrArg Location.mk line) column
  le_total a b := by
    simp only [le_def]
    omega
  lt_iff_le_not_ge a b := by
    simp only [le_def, lt_def]
    omega
  toDecidableLE a b := inferInstanceAs (Decidable (_ ∨ _ ∧ _))

private theorem lt_next (here : Location) (c : Char) : here < here.next c := by
  unfold next
  split
  · exact .inl (Nat.lt_succ_self _)
  · exact .inr ⟨rfl, Nat.lt_succ_self _⟩

theorem le_after (here : Location) (text : List Char) : here ≤ here.after text := by
  induction text generalizing here with
  | nil => exact le_refl here
  | cons c text ih => exact le_trans (le_of_lt (lt_next here c)) (ih (here.next c))

/-- A text that is not empty ends behind its beginning. -/
theorem lt_after (here : Location) {text : List Char} (proper : text ≠ []) : here < here.after text := by
  cases text with
  | nil => exact absurd rfl proper
  | cons c text => exact lt_of_lt_of_le (lt_next here c) (le_after (here.next c) text)

end LittleScript.Location
