import LittleScript.Proofs.Rule.Reading

/-!
Runs that report nothing. What a silent run has built and used is known from its parts, which were
silent too.
-/

namespace LittleScript.Rule

open Run

/-- From `s`, the rule reports something, or it builds a value and comes to a good state. -/
def Ensures {α : Type} (rule : Rule α) (s : State) (good : α → State → Prop) : Prop :=
  s.Silent (rule.run s).2 → ∃ a t, rule.run s = (some a, t) ∧ good a t

namespace Ensures
variable {α β : Type} {rule : Rule α} {follow : α → Rule β} {s t : State} {a : α} {good : α → State → Prop}
  {goal : β → State → Prop}

theorem of_run (run : rule.run s = (some a, t)) (h : good a t) : Ensures rule s good :=
  fun _ => ⟨a, t, run, h⟩

theorem done (h : good a s) : Ensures (pure a) s good := of_run rfl h

theorem refuse (cause : Cause) (location : Location) : Ensures (Rule.refuse cause location) s good :=
  fun silent => absurd silent (s.not_silent_diagnosed _)

theorem bind (first : Ensures rule s good) (second : ∀ a t, good a t → Ensures (follow a) t goal) :
    Ensures (rule >>= follow) s goal := by
  intro silent
  obtain ⟨before, behind⟩ := silent.split (rule.leads s) (leads_next rule follow s)
  obtain ⟨a, t, run, reached⟩ := first before
  have same : (rule >>= follow).run s = (follow a).run t := by rw [run_bind, run, next_some]
  rw [run, same] at behind
  obtain ⟨b, u, run', reached'⟩ := second a t reached behind
  exact ⟨b, u, same.trans run', reached'⟩

theorem step (run : rule.run s = (some a, t)) (second : Ensures (follow a) t goal) :
    Ensures (rule >>= follow) s goal := by
  have first : Ensures rule s fun b u => b = a ∧ u = t := of_run run ⟨rfl, rfl⟩
  apply first.bind
  rintro _ _ ⟨rfl, rfl⟩
  exact second

theorem weaken {better : α → State → Prop} (h : Ensures rule s good)
    (weaker : ∀ a t, good a t → better a t) : Ensures rule s better := by
  intro silent
  obtain ⟨a, t, run, reached⟩ := h silent
  exact ⟨a, t, run, weaker a t reached⟩

/-- A token that is expected is there and used up. -/
theorem expected {follow : Token → Rule β} {kind : Kind} (proper : kind ≠ .endOfInput)
    (second : s.peek.kind = kind → s.ahead = s.peek :: s.advance.ahead →
      Ensures (follow s.peek) s.advance goal) :
    Ensures (expect kind >>= follow) s goal := by
  by_cases there : s.peek.kind = kind
  · have run : (expect kind).run s = (some s.peek, s.advance) := by rw [run_expect, if_pos there]
    apply step run
    exact second there (State.ahead_of_peek (by rw [there]; exact proper))
  · intro silent
    have refused : (expect kind >>= follow).run s =
        (none, s.record (.diagnosed ⟨.unexpected kind s.peek.kind, s.peek.location⟩)) := by
      rw [run_bind, run_expect, if_neg there, next_none]
    rw [refused] at silent
    exact absurd silent (s.not_silent_diagnosed _)

/-- An entry at the end that holds no diagnostic. -/
theorem andRecord {event : Option α → Event} (h : Ensures rule s good)
    (unheard : ∀ value, (event value).diagnostic? = none)
    (kept : ∀ a t, good a t → good a (t.record (event (some a)))) :
    Ensures (rule.andRecord event) s good := by
  intro silent
  have ended := (rule.run s).2.quiet_record (event (rule.run s).1) (unheard _)
  have inside : s.Silent (rule.run s).2 := Eq.trans (Eq.symm ended.silent) silent
  obtain ⟨a, t, run, reached⟩ := h inside
  refine ⟨a, t.record (event (some a)), ?_, kept a t reached⟩
  rw [run_andRecord, run]

end Ensures

/-- Parts of a silent chain. -/
theorem silent_chain {α : Type} {rule : Rule α} {held : Nat} {follow : α → Chain} {s : State}
    {good : α → State → Prop} (ensures : Ensures rule s good)
    (silent : s.Silent ((Chain.andThen rule held follow).run s).2.2) :
    ∃ a t, good a t ∧ (Chain.andThen rule held follow).run s = (follow a).run t ∧
      t.Silent ((follow a).run t).2.2 := by
  have rest := leads_chain rule held follow s
  obtain ⟨before, behind⟩ := State.Silent.split (rule.leads s) rest silent
  obtain ⟨a, t, run, reached⟩ := ensures before
  have same : (Chain.andThen rule held follow).run s = (follow a).run t := by
    rw [Chain.run_andThen, run, Chain.next_some]
  rw [run, same] at behind
  exact ⟨a, t, reached, same, behind⟩

end LittleScript.Rule
