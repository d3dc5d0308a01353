import LittleScript.Proofs.Rule.Braces.Basic
import LittleScript.Proofs.Rule.Nested
import LittleScript.Rule.Operand

/-!
Every rule of the language closes the blocks that it opens, unless it passes over a brace.
-/

namespace LittleScript

open Run

structure Inner.Balanced (inner : Inner) : Prop where
  expression : ∀ precedence s, Rule.Balanced (inner.expression precedence) s.tokens s
  block : ∀ s, s.current.kind = .leftBrace → Rule.Balanced inner.block s.tokens s

namespace Rule.Balanced
variable {inner : Inner} {s : State}

private theorem nextExpression (h : inner.Balanced) (s : State) : Balanced (nextExpression inner) s.ahead s :=
  advance (h.expression .lowest _)

/-- Where a block has to start, the next token is its opening brace. -/
private theorem nextBlock (h : inner.Balanced) (s : State) : Balanced (nextBlock inner) s.ahead s := by
  by_cases opens : s.peek.kind = .leftBrace
  · have moved : Balanced (Rule.advance >>= fun _ => inner.block) s.ahead s := advance (h.block _ opens)
    apply moved.step _ (.refl s)
    rw [Rule.nextBlock, run_bind, run_expect, if_pos opens, next_some]
    rfl
  · apply still
    rw [Rule.nextBlock, run_bind, run_expect, if_neg opens, next_none]
    rfl

private theorem assigned (h : inner.Balanced) (s : State) : Balanced (assigned inner) s.ahead s := by
  apply expected (by decide)
  apply (nextExpression h _).bind
  intro value t
  exact expected (by decide) (still rfl)

private theorem binding (h : inner.Balanced) (s : State) : Balanced (binding inner) s.ahead s := by
  apply current
  apply expected (by decide)
  exact (assigned h _).bind fun _ _ => still rfl

private theorem answer (h : inner.Balanced) (s : State) : Balanced (answer inner) s.ahead s := by
  apply current
  apply (nextExpression h s).bind
  intro value t
  exact expected (by decide) (still rfl)

private theorem assignment (h : inner.Balanced) (s : State) : Balanced (assignment inner) s.ahead s := by
  apply current
  exact (assigned h s).bind fun _ _ => still rfl

private theorem alternative (h : inner.Balanced) (s : State) : Balanced (alternative inner) s.ahead s := by
  apply peek
  split
  · rename_i word
    apply past (by rw [word]; decide)
    exact (nextBlock h _).bind fun _ _ => still rfl
  · exact still rfl

private theorem conditional (h : inner.Balanced) (s : State) : Balanced (conditional inner) s.ahead s := by
  apply current
  apply expected (by decide)
  apply (nextExpression h _).bind
  intro condition t
  apply expected (by decide)
  apply (nextBlock h _).bind
  intro consequence u
  exact (alternative h u).bind fun _ _ => still rfl

private theorem signature (h : inner.Balanced) (s : State) : Balanced (signature inner) s.ahead s := by
  apply expected (by decide)
  have parameter : ∀ s, Balanced parameter s.ahead s := fun s => expected (by decide) (still rfl)
  apply (listed parameter _).bind
  intro parameters t
  exact (nextBlock h t).bind fun _ _ => still rfl

private theorem functionStatement (h : inner.Balanced) (s : State) :
    Balanced (functionStatement inner) s.ahead s := by
  apply current
  apply (signature h s).bind
  rintro ⟨parameters, body⟩ t
  apply peek
  dsimp only
  split
  · rename_i ends
    exact past (by rw [ends]; decide) (still rfl)
  · exact still rfl

private theorem integer (token : Token) (s : State) : Balanced (integer token) s.ahead s := by
  unfold Rule.integer
  cases Numeral.read? token.literal with
  | none => exact still rfl
  | some value => exact still rfl

private theorem unary (h : inner.Balanced) (token : Token) (operator : UnaryOperator) (s : State) :
    Balanced (unary inner token operator) s.ahead s := by
  apply advance
  exact (h.expression .unary _).bind fun _ _ => still rfl

private theorem grouped (h : inner.Balanced) (s : State) : Balanced (grouped inner) s.ahead s := by
  apply (nextExpression h s).bind
  intro expression t
  exact expected (by decide) (still rfl)

theorem operandOn (h : inner.Balanced) (token : Token) (s : State) :
    Balanced (operandOn inner token) s.ahead s := by
  unfold Rule.operandOn
  split
  · exact still rfl
  · exact integer token s
  · exact unary h token .bang s
  · exact unary h token .minus s
  · exact still rfl
  · exact still rfl
  · exact grouped h s
  · exact (signature h s).bind fun _ _ => still rfl
  · exact still rfl
  · exact still rfl

/-- No link is made by a brace. -/
theorem not_isBrace_of_link {precedence : Precedence} {kind : Kind} {link : Link}
    (h : linkAbove? precedence kind = some link) : ¬ kind.IsBrace := by
  rintro (rfl | rfl)
  all_goals cases h

theorem linked (h : inner.Balanced) (link : Link) (left : Expression) (other : ¬ s.peek.kind.IsBrace) :
    Balanced (linked inner link left) s.ahead s := by
  apply past other
  apply current
  cases link with
  | binary operator =>
    apply advance
    exact (h.expression _ _).bind fun _ _ => still rfl
  | call => exact (listed (nextExpression h) _).bind fun _ _ => still rfl

private theorem statementOn (h : inner.Balanced) (token : Token) (s : State) :
    Balanced (statementOn inner token) s.ahead s := by
  unfold Rule.statementOn
  split
  · exact binding h s
  · exact answer h s
  · exact functionStatement h s
  · exact conditional h s
  · exact assignment h s
  · exact still rfl
  · exact still rfl

/-- A statement that starts on an opening brace passes over it. -/
private theorem statement (h : inner.Balanced) (other : s.current.kind ≠ .rightBrace) :
    Balanced (statement inner) s.tokens s := by
  have ended : State.Leads _ ((Rule.statement inner).run s).2 := .record _ _
  by_cases opens : s.current.kind = .leftBrace
  · have begun : s.LosesBrace s.begun := State.losesBrace_record (decide_eq_true opens)
    exact .inl (begun.extend (.refl s) (((Rule.statementOn inner s.current).leads s.begun).trans ended))
  · have plain : ¬ s.current.kind.IsBrace := fun brace => brace.elim opens other
    rcases statementOn h s.current s.begun with loses | same
    · exact .inl (loses.extend (.record s _) ended)
    · exact .inr fun inner => (State.fromClosing_tokens plain inner).trans (same inner)

/-- What is read from an opening brace on ends at the brace that closes it, or at the end if there is none,
unless a brace is passed over. -/
theorem openBlock (h : inner.Balanced) (s : State) :
    s.LosesBrace ((openBlock inner).run s).2 ∨
      ((Rule.openBlock inner).run s).2.tokens = fromClosing 0 s.ahead := by
  rcases sequenceFrom (fun _ => statement h) [] s.advance with loses | same
  · exact .inl (loses.extend (.advance s) (.refl _))
  · exact .inr same

end Rule.Balanced
end LittleScript
