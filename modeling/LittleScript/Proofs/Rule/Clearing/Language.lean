import LittleScript.Proofs.Rule.Clearing.Basic
import LittleScript.Proofs.Rule.Nested

/-!
Every rule of the language deals with the characters that it comes to. An expression and a statement may
start on one. Everything else starts behind a token that is already used.
-/

namespace LittleScript

open Run

structure Inner.Clears (c : Token) (inner : Inner) : Prop where
  expression : ∀ precedence s, Rule.Clears c (inner.expression precedence) s.tokens s
  block : ∀ s, s.current.kind = .leftBrace → Rule.Clears c inner.block s.ahead s

namespace Rule.Clears
variable {c : Token} {inner : Inner} {s : State}

private theorem nextExpression (h : inner.Clears c) (s : State) : Clears c (nextExpression inner) s.ahead s :=
  advance (h.expression .lowest _)

private theorem nextBlock (h : inner.Clears c) (s : State) : Clears c (nextBlock inner) s.ahead s :=
  expected (by decide) fun opens => h.block _ opens

private theorem assigned (h : inner.Clears c) (s : State) : Clears c (assigned inner) s.ahead s := by
  apply expected (by decide)
  intro _
  apply (nextExpression h _).bind
  intro value t _
  exact ended (by decide)

private theorem binding (h : inner.Clears c) (s : State) : Clears c (binding inner) s.ahead s := by
  apply current
  apply expected (by decide)
  intro _
  exact (assigned h _).bind fun _ _ legal => .pure legal

private theorem answer (h : inner.Clears c) (s : State) : Clears c (answer inner) s.ahead s := by
  apply current
  apply (nextExpression h s).bind
  intro value t _
  exact ended (by decide)

private theorem assignment (h : inner.Clears c) (s : State) : Clears c (assignment inner) s.ahead s := by
  apply current
  exact (assigned h s).bind fun _ _ legal => .pure legal

private theorem alternative (h : inner.Clears c) (legal : s.current.kind ≠ .illegal) :
    Clears c (alternative inner) s.ahead s := by
  apply peek
  split
  · rename_i word
    apply past (by rw [word]; decide)
    exact (nextBlock h _).bind fun _ _ legal => .pure legal
  · exact .pure legal

private theorem conditional (h : inner.Clears c) (s : State) : Clears c (conditional inner) s.ahead s := by
  apply current
  apply expected (by decide)
  intro _
  apply (nextExpression h _).bind
  intro condition t _
  apply expected (by decide)
  intro _
  apply (nextBlock h _).bind
  intro consequence u legal
  exact (alternative h legal).bind fun _ _ legal => .pure legal

private theorem parameter (s : State) : Clears c parameter s.ahead s := ended (by decide)

private theorem signature (h : inner.Clears c) (s : State) : Clears c (signature inner) s.ahead s := by
  apply expected (by decide)
  intro _
  apply (listed parameter _).bind
  intro parameters t _
  exact (nextBlock h t).bind fun _ _ legal => .pure legal

private theorem functionStatement (h : inner.Clears c) (s : State) :
    Clears c (functionStatement inner) s.ahead s := by
  apply current
  apply (signature h s).bind
  rintro ⟨parameters, body⟩ t legal
  apply peek
  dsimp only
  split
  · rename_i ends
    have proper : t.peek.kind ≠ .illegal := by rw [ends]; decide
    exact past proper (.pure proper)
  · exact .pure legal

private theorem integer (legal : s.current.kind ≠ .illegal) (token : Token) :
    Clears c (integer token) s.ahead s := by
  unfold Rule.integer
  split
  · exact .pure legal
  · exact .refuse rfl

private theorem unary (h : inner.Clears c) (token : Token) (operator : UnaryOperator) (s : State) :
    Clears c (unary inner token operator) s.ahead s := by
  apply advance
  exact (h.expression .unary _).bind fun _ _ legal => .pure legal

private theorem grouped (h : inner.Clears c) (s : State) : Clears c (grouped inner) s.ahead s := by
  apply (nextExpression h s).bind
  intro expression t _
  exact ended (by decide)

private theorem function (h : inner.Clears c) (token : Token) (s : State) :
    Clears c (function inner token) s.ahead s :=
  (signature h s).bind fun _ _ legal => .pure legal

/-- An operand that starts on the character is refused with a report about it. -/
theorem operand (h : inner.Clears c) (s : State) : Clears c (operand inner) s.tokens s := by
  apply current
  by_cases illegal : s.current.kind = .illegal
  · rw [operandOn, illegal]
    exact refuseCurrent (.inl rfl)
  · apply behind illegal
    unfold operandOn
    split
    · exact .pure illegal
    · exact integer illegal _
    · exact unary h _ .bang s
    · exact unary h _ .minus s
    · exact .pure illegal
    · exact .pure illegal
    · exact grouped h s
    · exact function h _ s
    · exact absurd ‹_› illegal
    · exact .refuse rfl

theorem linked (h : inner.Clears c) (link : Link) (left : Expression) (legal : s.peek.kind ≠ .illegal) :
    Clears c (linked inner link left) s.ahead s := by
  apply past legal
  apply current
  cases link with
  | binary operator =>
    apply advance
    exact (h.expression _ _).bind fun _ _ legal => .pure legal
  | call => exact (listed (nextExpression h) _).bind fun _ _ legal => .pure legal

/-- A statement that starts on the character is refused with a report about it. No other token that is
left out without a word is one. -/
private theorem statementOn (h : inner.Clears c) (s : State) : Clears c (statementOn inner s.current) s.tokens s := by
  by_cases illegal : s.current.kind = .illegal
  · rw [Rule.statementOn, illegal]
    exact refuseCurrent (.inl rfl)
  · apply behind illegal
    unfold Rule.statementOn
    split
    · exact binding h s
    · exact answer h s
    · exact functionStatement h s
    · exact conditional h s
    · exact assignment h s
    · exact absurd ‹_› illegal
    · exact .skip

theorem statement (h : inner.Clears c) (s : State) : Clears c (statement inner) s.tokens s := by
  intro tracks
  have inside := statementOn h s.begun (tracks.leads (.record s _))
  have begun := s.quiet_record (.statementBegun s.current s.peek) rfl
  rw [run_statement]
  exact ⟨(State.due_silent (State.quiet_record _ _ rfl).silent).trans
    (inside.due.trans (State.due_silent begun.silent)), inside.legal⟩

/-- A block ends on its brace or at the end of the tokens. -/
theorem closed {tree : Block} (ended : s.tokens = [] ∨ s.current.kind = .rightBrace) :
    Clears c (closed tree) s.tokens s := by
  have legal : s.current.kind ≠ .illegal := by
    obtain nothing | brace := ended
    · rw [State.current_kind, nothing]
      decide
    · rw [brace]
      decide
  apply behind legal
  apply current
  split
  · exact .pure legal
  · exact .refuse rfl

end Rule.Clears
end LittleScript
