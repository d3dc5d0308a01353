import LittleScript.Proofs.Run.Stretch

/-!
Braces and the blocks between them: where the closing brace of a block stands, and what a run has to do
with a brace to miss it.
-/

namespace LittleScript

def Kind.IsBrace (kind : Kind) : Prop := kind = .leftBrace ∨ kind = .rightBrace

instance (kind : Kind) : Decidable kind.IsBrace := inferInstanceAs (Decidable (_ ∨ _))

/-- The tokens from the brace on that closes a block opened in front of them, in which `inner` more blocks
are open. None are left if there is no such brace. -/
def fromClosing : Nat → List Token → List Token
  | _, [] => []
  | inner, token :: rest =>
    if token.kind = .leftBrace then fromClosing (inner + 1) rest
    else if token.kind = .rightBrace then
      match inner with
      | 0 => token :: rest
      | inner + 1 => fromClosing inner rest
    else fromClosing inner rest

section
variable {token : Token} {rest : List Token}

private theorem fromClosing_other (h : ¬ token.kind.IsBrace) (inner : Nat) :
    fromClosing inner (token :: rest) = fromClosing inner rest := by
  rw [fromClosing.eq_def]
  dsimp only
  rw [if_neg fun opens => h (.inl opens), if_neg fun closes => h (.inr closes)]

theorem fromClosing_leftBrace (h : token.kind = .leftBrace) (inner : Nat) :
    fromClosing inner (token :: rest) = fromClosing (inner + 1) rest := by
  rw [fromClosing.eq_def]
  dsimp only
  rw [if_pos h]

theorem fromClosing_zero (h : token.kind = .rightBrace) : fromClosing 0 (token :: rest) = token :: rest := by
  rw [fromClosing, h]
  rfl

private theorem fromClosing_succ (h : token.kind = .rightBrace) (inner : Nat) :
    fromClosing (inner + 1) (token :: rest) = fromClosing inner rest := by
  rw [fromClosing, h]
  rfl

/-- The blocks inside are closed first, and then the ones around them. -/
theorem fromClosing_add (outer inner : Nat) (tokens : List Token) :
    fromClosing (outer + inner + 1) tokens = fromClosing outer (fromClosing inner tokens).tail := by
  induction tokens generalizing inner with
  | nil => rfl
  | cons token rest ih =>
    by_cases opens : token.kind = .leftBrace
    · rw [fromClosing_leftBrace opens, fromClosing_leftBrace opens]
      exact ih (inner + 1)
    · by_cases closes : token.kind = .rightBrace
      · rw [fromClosing_succ closes]
        cases inner with
        | zero => rw [fromClosing_zero closes, List.tail_cons, Nat.add_zero]
        | succ inner =>
          rw [fromClosing_succ closes]
          exact ih inner
      · have other : ¬ token.kind.IsBrace := fun brace => brace.elim opens closes
        rw [fromClosing_other other, fromClosing_other other, ih inner]

end

/-- The entry tells that a brace among these tokens is passed over without a block: a statement or an
expression was to start on it, or no level was left for its block. -/
def Event.losesBrace (tokens : List Token) : Event → Bool
  | .statementBegun token _ => token.kind = .leftBrace
  | .expressionBegun token _ => token.kind.IsBrace
  | .diagnosed ⟨.nestingTooDeep _, location⟩ =>
    tokens.any fun token => token.kind = .leftBrace && token.location = location
  | _ => false

private theorem Event.losesBrace_mono {event : Event} {tokens more : List Token} (sub : tokens ⊆ more)
    (h : event.losesBrace tokens = true) : event.losesBrace more = true := by
  unfold losesBrace at h ⊢
  split at h
  · exact h
  · exact h
  · obtain ⟨token, mem, here⟩ := List.any_eq_true.1 h
    exact List.any_eq_true.2 ⟨token, sub mem, here⟩
  · exact absurd h Bool.false_ne_true

namespace Run.State
variable {s t u v : State}

def LosesBrace (s t : State) : Prop :=
  ∃ added, t.journal.latestFirst = added ++ s.journal.latestFirst ∧
    ∃ event ∈ added, event.losesBrace s.tokens = true

/-- What is passed over in a part of a stretch is passed over in the whole. -/
theorem LosesBrace.extend (before : s.Leads t) (h : t.LosesBrace u) (behind : u.Leads v) :
    s.LosesBrace v := by
  obtain ⟨first, eq⟩ := before.journal
  obtain ⟨added, eq', event, mem, loses⟩ := h
  obtain ⟨last, eq''⟩ := behind.journal
  refine ⟨last ++ (added ++ first), ?_, event, ?_, Event.losesBrace_mono before.tokens.subset loses⟩
  · rw [← eq'', eq', ← eq, List.append_assoc, List.append_assoc]
  · exact List.mem_append_right _ (List.mem_append_left _ mem)

theorem losesBrace_record {event : Event} (loses : event.losesBrace s.tokens = true) :
    s.LosesBrace (s.record event) :=
  ⟨[event], rfl, event, List.mem_singleton_self event, loses⟩

/-- A current token that is no brace does not count. -/
theorem fromClosing_tokens (h : ¬ s.current.kind.IsBrace) (inner : Nat) :
    fromClosing inner s.tokens = fromClosing inner s.ahead := by
  by_cases ended : s.tokens = []
  · rw [ahead, ended]
    rfl
  · rw [tokens_of_proper ended, fromClosing_other h]

end Run.State
end LittleScript
