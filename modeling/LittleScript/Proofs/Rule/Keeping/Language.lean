import LittleScript.Proofs.Rule.Keeping.Basic
import LittleScript.Proofs.Rule.Nested
import LittleScript.Proofs.Syntax.Tokens

/-!
What the rules of the language keep: a tree has its own token in front of those of its parts, apart from an
operator or a call, whose token stands behind a part that was already read.
-/

namespace LittleScript

open Run Rule

structure Inner.Keeps (inner : Inner) : Prop where
  expression : ∀ precedence s, Rule.Yields (inner.expression precedence) s fun tree t =>
    (tree.tokens ++ t.ahead).Sublist s.tokens
  block : ∀ token, token.kind = .leftBrace → Rule.KeepsOn token inner.block Block.tokens

namespace Rule.Keeps
variable {inner : Inner}

private theorem nextExpression (h : inner.Keeps) : Keeps [] (nextExpression inner) Expression.tokens :=
  fun s => h.expression .lowest s.advance

private theorem nextBlock (h : inner.Keeps) : Keeps [] (nextBlock inner) Block.tokens :=
  expected (by decide) h.block

private theorem assigned (h : inner.Keeps) : Keeps [] (assigned inner) Expression.tokens := by
  refine (past _ _).bind fun _ => ?_
  refine (nextExpression h).bind fun value => ?_
  exact (past _ _).bind fun _ => .pure (.refl _)

private theorem parameter : Keeps [] parameter fun name => [name.token] :=
  (Keeps.expect (by decide)).bind fun _ => .pure (.refl _)

private theorem signature (h : inner.Keeps) :
    Keeps [] (signature inner) fun (parameters, body) => parameters.map Name.token ++ body.tokens := by
  refine (past _ _).bind fun _ => ?_
  refine (Keeps.listed parameter).bind fun parameters => ?_
  refine ((nextBlock h).behind _).bind fun body => .pure ?_
  have named : parameters.map Name.token = parameters.flatMap fun name => [name.token] :=
    List.map_eq_flatMap
  exact named ▸ .refl _

private theorem alternative (h : inner.Keeps) : Keeps [] (alternative inner) Block.anyTokens := by
  refine (past _ _).bind fun _ => ?_
  split
  · refine (past _ _).bind fun _ => ?_
    exact (nextBlock h).bind fun body => .pure (.refl _)
  · exact .pure (.refl _)

end Rule.Keeps

namespace Rule.KeepsOn
variable {inner : Inner} {token : Token}

private theorem binding (h : inner.Keeps) : KeepsOn token (binding inner) Statement.tokens := by
  refine current (((Keeps.expect (by decide)).behind [token]).bind fun name => ?_)
  exact ((Keeps.assigned h).behind _).bind fun value => .pure (.refl _)

private theorem answer (h : inner.Keeps) : KeepsOn token (answer inner) Statement.tokens := by
  refine current (((Keeps.nextExpression h).behind [token]).bind fun value => ?_)
  exact (Keeps.past _ _).bind fun _ => .pure (.refl _)

private theorem assignment (h : inner.Keeps) : KeepsOn token (assignment inner) Statement.tokens :=
  current (((Keeps.assigned h).behind [token]).bind fun _ => .pure (.refl _))

private theorem conditional (h : inner.Keeps) : KeepsOn token (conditional inner) Statement.tokens := by
  refine current ((Keeps.past _ _).bind fun _ => ?_)
  refine ((Keeps.nextExpression h).behind [token]).bind fun condition => ?_
  refine (Keeps.past _ _).bind fun _ => ?_
  refine ((Keeps.nextBlock h).behind _).bind fun consequence => ?_
  exact ((Keeps.alternative h).behind _).bind fun other => .pure (.refl _)

private theorem functionStatement (h : inner.Keeps) : KeepsOn token (functionStatement inner) Statement.tokens := by
  refine current (((Keeps.signature h).behind [token]).bind fun (parameters, body) => ?_)
  refine (Keeps.past _ _).bind fun next => ?_
  dsimp only
  split
  · exact (Keeps.past _ _).bind fun _ => .pure (.refl _)
  · exact .pure (.refl _)

private theorem statementOn (h : inner.Keeps) : KeepsOn token (statementOn inner token) Statement.tokens := by
  unfold Rule.statementOn
  split
  · exact binding h
  · exact answer h
  · exact functionStatement h
  · exact conditional h
  · exact assignment h
  · exact of_keeps (.refuse _ _)
  · exact of_keeps .skip

end Rule.KeepsOn

namespace Rule.Keeps
variable {inner : Inner}

/-- A statement lists tokens from the current one on. At the end of the text there is none. -/
theorem statement (h : inner.Keeps) (s : State) :
    Yields (statement inner) s fun tree t => (tree.tokens ++ t.ahead).Sublist s.tokens := by
  by_cases ended : s.current.kind = .endOfInput
  · refine .of_none (t := s.begun.record (.statementEnded s.current false)) ?_
    rw [run_statement, Rule.statementOn, ended]
    rfl
  · intro tree t run
    rw [run_statement] at run
    have value : ((Rule.statementOn inner s.current).run s.begun).1 = some tree := congrArg Prod.fst run
    have same : ((Rule.statementOn inner s.current).run s.begun).2.ahead = t.ahead :=
      congrArg (State.ahead ∘ Prod.snd) run
    rw [← same]
    exact (KeepsOn.statementOn h).yields (s := s.begun) ended tree _ (Prod.ext value rfl)

theorem topStatement {limit : Nat} (h : (within limit limit).Keeps) (s : State) :
    Yields (topStatement limit) s fun tree t => (tree.tokens ++ t.ahead).Sublist s.tokens := by
  refine (statement h s).bind fun tree t kept => ?_
  exact ((past tree.tokens (record (.kept tree))).bind fun _ => .pure (.refl _)) t |>.weaken
    fun _ _ kept' => kept'.trans kept

theorem closed (tree : Block) (s : State) : Yields (closed tree) s fun other t => other = tree ∧ t = s := by
  intro other t run
  rw [run_closed] at run
  split at run
  · obtain ⟨value, place⟩ := Prod.mk.inj run
    exact ⟨(Option.some.inj value).symm, place.symm⟩
  · cases run

private theorem integer (token : Token) : Keeps [token] (integer token) Expression.tokens := by
  unfold Rule.integer
  split
  · exact .pure (.refl _)
  · exact .refuse _ _

/-- An operand that starts on the token of its node. -/
private theorem unary (h : inner.Keeps) (token : Token) (operator : UnaryOperator) :
    Keeps [token] (unary inner token operator) Expression.tokens := by
  refine advance fun s => ?_
  exact (h.expression .unary s).bind fun operand t kept => .pure (kept.cons_cons token)

private theorem grouped (h : inner.Keeps) : Keeps [] (grouped inner) Expression.tokens := by
  refine (nextExpression h).bind fun expression => ?_
  exact (past _ _).bind fun _ => .pure (.refl _)

private theorem operandOn (h : inner.Keeps) (token : Token) :
    Keeps [token] (operandOn inner token) Expression.tokens := by
  unfold Rule.operandOn
  split
  · exact .pure (.refl _)
  · exact integer token
  · exact unary h token .bang
  · exact unary h token .minus
  · exact .pure (.refl _)
  · exact .pure (.refl _)
  · exact (grouped h).weaken (List.nil_sublist _)
  · exact ((signature h).behind [token]).bind fun (parameters, body) => .pure (.refl _)
  · exact .refuse _ _
  · exact .refuse _ _

/-- An operand lists tokens from the current one on. At the end of the text there is none. -/
theorem operand (h : inner.Keeps) (s : State) :
    Yields (operand inner) s fun tree t => (tree.tokens ++ t.ahead).Sublist s.tokens := by
  have read : Yields (Rule.operandOn inner s.current) s fun tree t =>
      (tree.tokens ++ t.ahead).Sublist s.tokens := by
    by_cases ended : s.current.kind = .endOfInput
    · refine .of_none (t := s.record (.diagnosed ⟨.noExpression .endOfInput, s.current.location⟩)) ?_
      rw [Rule.operandOn, ended]
      rfl
    · exact (KeepsOn.of_keeps (operandOn h s.current)).yields ended
  exact .of_run read rfl

/-- The token of a link stands behind the tokens of what it links. -/
theorem linked (h : inner.Keeps) {link : Link} {s : State} (made : Link.ofKind? s.peek.kind = some link)
    (left : Expression) :
    Yields (linked inner link left) s fun tree t =>
      (tree.tokens ++ t.ahead).Sublist (left.tokens ++ s.ahead) := by
  have proper : s.peek.kind ≠ .endOfInput := by
    intro ended
    rw [ended] at made
    cases made
  have seen : s.ahead = s.peek :: s.advance.ahead := State.ahead_of_peek proper
  have front : left.tokens ++ s.ahead = (left.tokens ++ [s.peek]) ++ s.advance.ahead := by
    rw [seen, List.append_assoc, List.singleton_append]
  rw [front]
  cases link with
  | binary operator =>
    have rest : Keeps (left.tokens ++ [s.peek]) (do
        Rule.advance
        return .binary s.peek operator left (← inner.expression (Link.binary operator).precedence))
        Expression.tokens := by
      refine advance fun t => ?_
      refine (h.expression _ t).bind fun right u kept => .pure ?_
      rw [Expression.tokens, List.append_cons, List.append_assoc (left.tokens ++ [s.peek])]
      exact kept.append_left _
    exact rest s.advance
  | call =>
    have rest : Keeps (left.tokens ++ [s.peek]) (do
        return .call s.peek left (← listed (Rule.nextExpression inner))) Expression.tokens := by
      refine ((nextExpression h).listed.behind _).bind fun arguments => .pure ?_
      have called : (Expression.call s.peek left arguments).tokens =
          left.tokens ++ [s.peek] ++ arguments.flatMap Expression.tokens := by
        rw [Expression.tokens, Expression.allTokens_eq_flatMap, List.append_cons]
      exact called ▸ .refl _
    exact rest s.advance

end Rule.Keeps
end LittleScript
