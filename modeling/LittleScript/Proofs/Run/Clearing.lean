import LittleScript.Proofs.Run.Report

/-!
Characters that belong to no token, and the reports that concern them. How often a run has reported a
character and how often it still has to come to it add up to the same number all the time.
-/

namespace LittleScript

def Diagnostic.concerns (c : Token) (d : Diagnostic) : Bool :=
  match d.cause with
  | .illegalCharacter literal => d.location = c.location && literal = c.literal
  | .nestingTooDeep _ => d.location = c.location
  | _ => false

namespace Run.State
variable {c : Token} {s t : State} {front : List Token}

/-- How often the character has been reported, and how often it stands in the tokens that the run still
has to deal with. -/
def due (s : State) (c : Token) (front : List Token) : Nat :=
  s.journal.diagnostics.countP (Diagnostic.concerns c) + front.count c

/-- The character belongs to no token, and nothing else that is left stands at its place. -/
structure Tracks (s : State) (c : Token) : Prop where
  illegal : c.kind = .illegal
  only : ∀ token ∈ s.left.toList, token.location = c.location → token = c

theorem Tracks.leads (h : s.Tracks c) (led : s.Leads t) : t.Tracks c :=
  ⟨h.illegal, fun token mem => h.only token (led.toList.subset mem)⟩

private theorem Tracks.current_iff (h : s.Tracks c) : s.current.location = c.location ↔ s.current = c :=
  ⟨h.only _ s.current_mem, congrArg Token.location⟩

/-- Another current token does not count. -/
private theorem count_tokens (other : s.current ≠ c) : s.tokens.count c = s.ahead.count c := by
  by_cases ended : s.tokens = []
  · rw [ahead, ended, List.tail_nil]
  · rw [tokens_of_proper ended, List.count_cons_of_ne other]

/-- A current token of another kind is dealt with. -/
theorem Tracks.due_tokens (h : s.Tracks c) (legal : s.current.kind ≠ .illegal) :
    s.due c s.tokens = s.due c s.ahead := by
  have other : s.current ≠ c := fun same => legal (same ▸ h.illegal)
  rw [due, due, count_tokens other]

theorem due_silent (silent : s.Silent t) : t.due c front = s.due c front := by
  rw [due, due, show t.journal.diagnostics = s.journal.diagnostics from silent]

theorem due_diagnosed (s : State) (d : Diagnostic) :
    (s.record (.diagnosed d)).due c front = s.due c front + if d.concerns c then 1 else 0 := by
  rw [due, due, diagnostics_diagnosed, List.countP_append, List.countP_singleton]
  exact Nat.add_right_comm _ _ _

/-- A report about the current token, as one that is illegal or stands too deep, concerns the character if
that is the current token. Then the run has dealt with it. -/
theorem Tracks.due_reported (h : s.Tracks c) {cause : Cause}
    (about : cause = .illegalCharacter s.current.literal ∨ ∃ limit, cause = .nestingTooDeep limit) :
    (s.record (.diagnosed ⟨cause, s.current.location⟩)).due c s.ahead = s.due c s.tokens := by
  by_cases same : s.current = c
  · have proper : s.current.kind ≠ .endOfInput := by
      rw [same, h.illegal]
      decide
    have concerns : Diagnostic.concerns c ⟨cause, s.current.location⟩ = true := by
      obtain rfl | ⟨limit, rfl⟩ := about
      · simp [Diagnostic.concerns, same]
      · simp [Diagnostic.concerns, same]
    have first : s.tokens.count c = s.ahead.count c + 1 := by
      rw [tokens_of_current proper, same, List.count_cons_self]
    rw [due_diagnosed, if_pos concerns, due, due, first, Nat.add_assoc]
  · have elsewhere : s.current.location ≠ c.location := mt h.current_iff.1 same
    have other : Diagnostic.concerns c ⟨cause, s.current.location⟩ = false := by
      obtain rfl | ⟨limit, rfl⟩ := about
      · simp [Diagnostic.concerns, elsewhere]
      · simp [Diagnostic.concerns, elsewhere]
    rw [due_diagnosed, other, due, due, count_tokens same]
    rfl

end Run.State
end LittleScript
