import LittleScript.Proofs.Run.Stretch

/-!
A run that is cut off beside the whole one: it has the first tokens of the other and then the end mark. As
long as the end mark is not seen, both runs see the same.
-/

namespace LittleScript.Run.State

/-- Nothing is left behind the current token of the second state, and whatever was reported since the first
one is about the end. -/
structure Spent (s t : State) : Prop where
  ahead : t.ahead = []
  finish : t.finish = s.finish
  reported : ∃ added, t.journal.diagnostics = s.journal.diagnostics ++ added ∧
    ∀ d ∈ added, d.location = s.finish

/-- The first run stands on the same token as the second one and is cut off in front of the tokens
`more`. -/
structure Cuts (more : List Token) (s t : State) : Prop where
  proper : s.tokens ≠ []
  tokens : t.tokens = s.tokens ++ more
  depth : t.depth = s.depth

section
variable {s t u : State}

theorem Spent.trans (a : s.Spent t) (b : t.Spent u) : s.Spent u := by
  obtain ⟨first, eq, early⟩ := a.reported
  obtain ⟨second, eq', late⟩ := b.reported
  refine ⟨b.ahead, b.finish.trans a.finish, first ++ second, ?_, ?_⟩
  · rw [eq', eq, List.append_assoc]
  · intro d mem
    rcases List.mem_append.1 mem with mem | mem
    · exact early d mem
    · exact (late d mem).trans a.finish

/-- What was silent before adds nothing. -/
theorem Spent.after (b : t.Spent u) (led : s.Leads t) (silent : s.Silent t) : s.Spent u := by
  obtain ⟨added, eq, late⟩ := b.reported
  refine ⟨b.ahead, b.finish.trans led.finish, added, ?_, fun d mem => (late d mem).trans led.finish⟩
  rw [eq, silent]

theorem Leads.spent (led : s.Leads t) (silent : s.Silent t) (ended : t.ahead = []) : s.Spent t :=
  ⟨ended, led.finish, [], by rw [silent, List.append_nil], fun _ none => absurd none List.not_mem_nil⟩

theorem spent_refl (ended : s.ahead = []) : s.Spent s := (Leads.refl s).spent rfl ended

theorem spent_advance (ended : s.ahead = []) : s.Spent s.advance :=
  (Leads.advance s).spent s.diagnostics_advance (by rw [ahead, ahead_advance_tokens, ended, List.tail_nil])

theorem spent_diagnosed (ended : s.ahead = []) {d : Diagnostic} (place : d.location = s.finish) :
    s.Spent (s.record (.diagnosed d)) := by
  refine ⟨ended, rfl, [d], s.diagnostics_diagnosed d, fun e mem => ?_⟩
  rw [List.mem_singleton.1 mem, place]

/-- Where no tokens are left, the end mark is the current token. -/
theorem location_current (ended : s.tokens = []) : s.current.location = s.finish := by
  rw [current, ended]
  rfl

theorem ahead_of_tokens_nil (ended : s.tokens = []) : s.ahead = [] := by
  rw [ahead, ended, List.tail_nil]

theorem peek_kind_of_ended (ended : s.ahead = []) : s.peek.kind = .endOfInput := by
  rw [peek_of_ahead_nil ended]
  rfl

end

namespace Cuts
variable {more : List Token} {s t : State}

theorem current (h : s.Cuts more t) : t.current = s.current := by
  rw [State.current, State.current, h.tokens]
  cases tokens : s.tokens with
  | nil => exact absurd tokens h.proper
  | cons token rest => rfl

/-- Both runs move on, unless the first one has used its last token. -/
theorem advance (h : s.Cuts more t) (goes : s.ahead ≠ []) : s.advance.Cuts more t.advance := by
  refine ⟨goes, ?_, h.depth⟩
  rw [tokens_advance, tokens_advance, h.tokens, List.tail_append_of_ne_nil h.proper]

theorem peek (h : s.Cuts more t) (goes : s.ahead ≠ []) : t.peek = s.peek := (h.advance goes).current

theorem record (h : s.Cuts more t) (event event' : Event) :
    (s.record event).Cuts more (t.record event') := ⟨h.proper, h.tokens, h.depth⟩

theorem takeLevel (h : s.Cuts more t) : s.takeLevel.Cuts more t.takeLevel :=
  ⟨h.proper, h.tokens, congrArg (· + 1) h.depth⟩

theorem returnLevels (h : s.Cuts more t) (count : Nat) :
    (s.returnLevels count).Cuts more (t.returnLevels count) :=
  ⟨h.proper, h.tokens, congrArg (· - count) h.depth⟩

end Cuts
end LittleScript.Run.State
