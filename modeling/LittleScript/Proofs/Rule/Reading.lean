import LittleScript.Proofs.Rule.Nested

/-!
Runs of which the value is known. With enough levels free a rule builds the value and reports
nothing; with fewer it reports the limit. Rules that are put together add up what they read and need
the larger of their levels.
-/

namespace LittleScript.Rule

open Run

/-- From `s`, a rule with `levels` free levels needs `peak` of them for the `value`. It closes them
again and leaves tokens ahead that are its `goal`. -/
structure Reads (limit levels : Nat) {α : Type} (rule : Rule α) (s : State) (peak : Nat) (value : α)
    (goal : List Token → Prop) : Prop where
  fits : peak ≤ levels → ∃ t, rule.run s = (some value, t) ∧ s.Quiet t ∧ goal t.ahead
  exceeds : levels < peak → s.TooDeep limit (rule.run s).2

namespace Reads
variable {α β : Type} {limit levels peak high : Nat} {rule : Rule α} {follow : α → Rule β} {s t : State}
  {a : α} {b : β} {mid goal : List Token → Prop}

/-- A run that reports nothing and takes no level. -/
theorem of_run (run : rule.run s = (some a, t)) (quiet : s.Quiet t) (done : goal t.ahead) :
    Reads limit levels rule s 0 a goal :=
  ⟨fun _ => ⟨t, run, quiet, done⟩, fun more => absurd more (Nat.not_lt_zero _)⟩

/-- The value is there and nothing is left to do. -/
theorem done (h : goal s.ahead) : Reads limit levels (pure a : Rule α) s 0 a goal := of_run rfl (.refl s) h

/-- A first step that takes no level. -/
theorem step (run : rule.run s = (some a, t)) (quiet : s.Quiet t)
    (second : Reads limit levels (follow a) t peak b goal) :
    Reads limit levels (rule >>= follow) s peak b goal := by
  have same : (rule >>= follow).run s = (follow a).run t := by rw [run_bind, run, next_some]
  refine ⟨fun le => ?_, fun lt => ?_⟩
  · obtain ⟨u, run', quiet', reached⟩ := second.fits le
    exact ⟨u, same.trans run', quiet.trans quiet', reached⟩
  · rw [same]
    exact (second.exceeds lt).extend (leads_of_run run) (.refl _)

/-- One rule after the other. The second one has as many levels free as the first. -/
theorem bind (first : Reads limit levels rule s peak a mid)
    (second : ∀ t, s.Quiet t → mid t.ahead → Reads limit levels (follow a) t high b goal) :
    Reads limit levels (rule >>= follow) s (max peak high) b goal := by
  by_cases room : peak ≤ levels
  · obtain ⟨t, run, quiet, reached⟩ := first.fits room
    have rest := step run quiet (second t quiet reached)
    exact ⟨fun le => rest.fits (by omega), fun lt => rest.exceeds (by omega)⟩
  · refine ⟨fun le => absurd le (by omega), fun _ => ?_⟩
    exact (first.exceeds (by omega)).extend (.refl s) (leads_next rule follow s)

theorem of_run_eq {other : Rule α} (h : Reads limit levels other s peak a goal)
    (same : rule.run s = other.run s) : Reads limit levels rule s peak a goal :=
  ⟨fun le => by rw [same]; exact h.fits le, fun lt => by rw [same]; exact h.exceeds lt⟩

/-- What takes no level may follow. -/
theorem andThen (first : Reads limit levels rule s peak a mid)
    (second : ∀ t, s.Quiet t → mid t.ahead → Reads limit levels (follow a) t 0 b goal) :
    Reads limit levels (rule >>= follow) s peak b goal := by
  rw [← Nat.max_zero peak]
  exact first.bind second

/-- The current token is looked at. -/
theorem current {follow : Token → Rule β} {token : Token} (there : s.current = token)
    (second : Reads limit levels (follow token) s peak b goal) :
    Reads limit levels (Rule.current >>= follow) s peak b goal := by
  apply step (run_current s) (.refl s)
  rw [there]
  exact second

/-- A token that is there as expected is used up. -/
theorem expected {follow : Token → Rule β} {token : Token} {rest : List Token} {kind : Kind}
    (there : s.ahead = token :: rest) (same : token.kind = kind)
    (second : Reads limit levels (follow token) s.advance peak b goal) :
    Reads limit levels (expect kind >>= follow) s peak b goal := by
  have seen : s.peek = token := State.peek_of_ahead there
  apply step (a := token) (t := s.advance)
  · rw [run_expect, if_pos (by rw [seen, same]), seen]
  · exact s.quiet_advance
  · exact second

/-- An entry at the end that holds no diagnostic. -/
theorem andRecord {event : Option α → Event} (h : Reads limit levels rule s peak a goal)
    (unheard : ∀ value, (event value).diagnostic? = none) :
    Reads limit levels (rule.andRecord event) s peak a goal := by
  refine ⟨fun le => ?_, fun lt => ?_⟩
  · obtain ⟨t, run, quiet, reached⟩ := h.fits le
    refine ⟨t.record (event (some a)), ?_, quiet.trans (t.quiet_record _ (unheard _)), reached⟩
    rw [run_andRecord, run]
  · exact (h.exceeds lt).extend (.refl s) (.record _ _)

end Reads

section
variable {α : Type} {item : Rule α} {found : List α} {s : State}

/-- The list ends before anything but a comma. -/
theorem run_items_done (h : s.peek.kind ≠ .comma) :
    (items item found).run s = (some found.reverse, s) := by
  change itemsFrom item found s = _
  rw [itemsFrom, dif_neg h]

/-- Behind a comma the list goes on with one more item. -/
theorem run_items_comma (h : s.peek.kind = .comma) :
    (items item found).run s =
      (advance >>= fun _ => item >>= fun a => items item (a :: found)).run s := by
  simp only [run_bind, run_advance, next_some]
  change itemsFrom item found s = _
  rw [itemsFrom, dif_pos h]
  split
  · rename_i failed
    rw [failed, next_none]
  · rename_i built
    rw [built, next_some]
    rfl

end
end LittleScript.Rule
