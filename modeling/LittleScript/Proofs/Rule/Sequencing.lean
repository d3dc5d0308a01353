import LittleScript.Rule.Listed

/-!
Rules one after the other: how the whole runs, and what its parts have done.
-/

namespace LittleScript.Rule

open Run

/-- Rules that run alike from every state are the same. -/
theorem ext_run {α : Type} {a b : Rule α} (h : ∀ s, a.run s = b.run s) : a = b := by
  have runs : a.run = b.run := funext h
  cases a
  cases b
  subst runs
  rfl

/-- What follows a rule starts where the rule ended. -/
theorem leads_next {α β : Type} (rule : Rule α) (follow : α → Rule β) (s : State) :
    (rule.run s).2.Leads ((rule >>= follow).run s).2 := by
  rw [run_bind]
  cases h : rule.run s with
  | mk value t =>
    cases value with
    | none => exact .refl t
    | some a => exact (follow a).leads t

/-- Three rules one after the other, in either grouping. -/
protected theorem bind_assoc {α β γ : Type} (rule : Rule α) (f : α → Rule β) (g : β → Rule γ) :
    (rule >>= f) >>= g = rule >>= fun a => f a >>= g := by
  apply ext_run
  intro s
  simp only [run_bind]
  cases rule.run s with
  | mk value t => cases value <;> rfl

/-- Where both rules go on alike behind a first one, the whole goes on alike. -/
protected theorem bind_congr {α β : Type} (rule : Rule α) {f g : α → Rule β} (h : ∀ a, f a = g a) :
    rule >>= f = rule >>= g := by
  rw [funext h]

/-- A rule in two parts that builds something has built both parts. -/
theorem parts_of_run_bind {α β : Type} {rule : Rule α} {follow : α → Rule β} {s u : State} {b : β}
    (h : (rule >>= follow).run s = (some b, u)) :
    ∃ a t, rule.run s = (some a, t) ∧ (follow a).run t = (some b, u) := by
  rw [run_bind] at h
  cases first : rule.run s with
  | mk value t =>
    rw [first] at h
    cases value with
    | none => exact absurd (congrArg Prod.fst h) (by simp)
    | some a => exact ⟨a, t, rfl, h⟩

section
variable {α : Type} {item : Rule α} {stops : Kind → Bool} {found : List α} {s : State}

/-- A sequence goes on behind what an item has read, or left out. -/
theorem sequenceFrom_step (proper : s.tokens ≠ []) (goes : stops s.current.kind = false) :
    sequenceFrom item stops found s =
      sequenceFrom item stops ((item.run s).1.toList ++ found) (item.run s).2.advance := by
  rw [sequenceFrom, dif_neg proper, if_neg (by rw [goes]; exact Bool.false_ne_true)]

theorem sequenceFrom_stops (h : s.tokens = [] ∨ stops s.current.kind = true) :
    sequenceFrom item stops found s = (found.reverse, s) := by
  rw [sequenceFrom]
  by_cases ended : s.tokens = []
  · rw [dif_pos ended]
  · rw [dif_neg ended, if_pos (h.resolve_left ended)]

end
end LittleScript.Rule
