import LittleScript.Proofs.Rule.Accounting.Basic
import LittleScript.Proofs.Syntax.Numbers

/-!
What the rules of the language read as numbers: those of a tree are those of its parts, one part behind the other.
An operand is looked for behind a move to its token, and a number that is too large is reported at once.
-/

namespace LittleScript

open Run Rule

structure Inner.Accounts (inner : Inner) : Prop where
  expression : ∀ precedence,
    Rule.Accounts [] (Rule.advance >>= fun _ => inner.expression precedence) Expression.numbers
  block : Rule.Accounts [] inner.block Block.numbers

namespace Rule.Accounts
variable {inner : Inner}

private theorem nextExpression (h : inner.Accounts) : Accounts [] (nextExpression inner) Expression.numbers :=
  h.expression .lowest

private theorem nextBlock (h : inner.Accounts) : Accounts [] (nextBlock inner) Block.numbers :=
  (Accounts.expect _).bind fun _ => h.block

private theorem assigned (h : inner.Accounts) : Accounts [] (assigned inner) Expression.numbers := by
  refine (Accounts.expect _).bind fun _ => ?_
  refine (nextExpression h).bind fun value => ?_
  exact (Accounts.expect _).bind fun _ => .pure rfl

private theorem binding (h : inner.Accounts) : Accounts [] (binding inner) Statement.numbers := by
  refine Accounts.current.bind fun token => ?_
  refine (Accounts.expect _).bind fun name => ?_
  exact (assigned h).bind fun value => .pure rfl

private theorem answer (h : inner.Accounts) : Accounts [] (answer inner) Statement.numbers := by
  refine Accounts.current.bind fun token => ?_
  refine (nextExpression h).bind fun value => ?_
  exact (Accounts.expect _).bind fun _ => .pure rfl

private theorem assignment (h : inner.Accounts) : Accounts [] (assignment inner) Statement.numbers :=
  Accounts.current.bind fun _ => (assigned h).bind fun _ => .pure rfl

private theorem alternative (h : inner.Accounts) : Accounts [] (alternative inner) Block.anyNumbers := by
  refine Accounts.peek.bind fun token => ?_
  split
  · refine Accounts.advance.bind fun _ => ?_
    exact (nextBlock h).bind fun body => .pure rfl
  · exact .pure rfl

private theorem conditional (h : inner.Accounts) : Accounts [] (conditional inner) Statement.numbers := by
  refine Accounts.current.bind fun token => ?_
  refine (Accounts.expect _).bind fun _ => ?_
  refine (nextExpression h).bind fun condition => ?_
  refine (Accounts.expect _).bind fun _ => ?_
  refine ((nextBlock h).behind _).bind fun consequence => ?_
  exact ((alternative h).behind _).bind fun other => .pure (Statement.numbers_conditional _ _ _ _)

private theorem parameter : Accounts [] parameter fun _ => [] := (Accounts.expect _).bind fun _ => .pure rfl

private theorem signature (h : inner.Accounts) : Accounts [] (signature inner) fun (_, body) => body.numbers := by
  refine (Accounts.expect _).bind fun _ => ?_
  refine (Accounts.listed parameter).bind fun parameters => ?_
  -- Parameters are names, so only the body has numbers.
  have none : parameters.flatMap (fun _ => ([] : List (Token × Int))) = [] := by simp
  rw [none]
  exact (nextBlock h).bind fun body => .pure rfl

private theorem functionStatement (h : inner.Accounts) : Accounts [] (functionStatement inner) Statement.numbers := by
  refine Accounts.current.bind fun token => ?_
  refine (signature h).bind fun (parameters, body) => ?_
  refine Accounts.peek.bind fun next => ?_
  dsimp only
  split
  · exact Accounts.advance.bind fun _ => .pure (Statement.numbers_function _ _ _)
  · exact .pure (Statement.numbers_function _ _ _)

/-- A token that begins no statement is left out without a word. -/
private theorem tallies_statementOn (h : inner.Accounts) (token : Token) :
    Tallies (statementOn inner token) Statement.numbers := by
  unfold Rule.statementOn
  split
  · exact (binding h).tallies
  · exact (answer h).tallies
  · exact (functionStatement h).tallies
  · exact (conditional h).tallies
  · exact (assignment h).tallies
  · exact (Accounts.refuse rfl).tallies
  · exact .skip

private theorem tallies_statement (h : inner.Accounts) : Tallies (statement inner) Statement.numbers := by
  refine .after .current fun token => ?_
  refine .after .peek fun next => ?_
  refine .after (.record rfl rfl) fun _ => ?_
  exact (tallies_statementOn h token).andRecord (fun _ => rfl) fun _ => rfl

theorem tallies_topStatement {limit : Nat} (h : (within limit limit).Accounts) :
    Tallies (topStatement limit) Statement.numbers :=
  (tallies_statement h).before fun _ => (Accounts.record rfl rfl).bind fun _ => .pure rfl

theorem openBlock (h : inner.Accounts) : Accounts [] (openBlock inner) Block.numbers := by
  refine Accounts.current.bind fun token => ?_
  refine Accounts.advance.bind fun _ => ?_
  refine ((tallies_statement h).sequence (· = .rightBrace)).bind fun body => .pure ?_
  exact Block.numbers_braced token body

theorem closed (tree : Block) : Accounts tree.numbers (closed tree) Block.numbers := by
  refine Accounts.current.bind fun last => ?_
  split
  · exact .pure rfl
  · exact .refuse rfl

private theorem unary (h : inner.Accounts) (token : Token) (operator : UnaryOperator) :
    Accounts [] (unary inner token operator) Expression.numbers := by
  rw [Rule.unary, ← Rule.bind_assoc]
  exact (h.expression .unary).bind fun operand => .pure rfl

private theorem grouped (h : inner.Accounts) : Accounts [] (grouped inner) Expression.numbers := by
  refine (nextExpression h).bind fun expression => ?_
  exact (Accounts.expect _).bind fun _ => .pure rfl

private theorem function (h : inner.Accounts) (token : Token) :
    Accounts [] (function inner token) Expression.numbers :=
  (signature h).bind fun _ => .pure (Expression.numbers_function _ _ _)

theorem linked (h : inner.Accounts) (link : Link) (left : Expression) :
    Accounts left.numbers (linked inner link left) Expression.numbers := by
  refine Accounts.advance.bind fun _ => ?_
  refine Accounts.current.bind fun token => ?_
  cases link with
  | binary operator =>
    dsimp only
    rw [← Rule.bind_assoc]
    exact ((h.expression _).behind _).bind fun right => .pure (Expression.numbers_binary _ _ _ _)
  | call =>
    exact ((nextExpression h).listed.behind _).bind fun arguments => .pure (Expression.numbers_call _ _ _)

end Rule.Accounts

namespace Rule
variable {inner : Inner} {s : State}

/-- An operand that is a number is read as such. -/
theorem run_operand_of_integer (inner : Inner) (number : s.current.kind = .integer) :
    (operand inner).run s = (integer s.current).run s := by
  change (operandOn inner s.current).run s = (integer s.current).run s
  rw [operandOn, number]

private theorem accounts_operandOn (h : inner.Accounts) {token : Token} (other : token.kind ≠ .integer) :
    Accounts [] (operandOn inner token) Expression.numbers := by
  unfold operandOn
  split
  · exact .pure rfl
  · exact absurd ‹_› other
  · exact .unary h _ .bang
  · exact .unary h _ .minus
  · exact .pure rfl
  · exact .pure rfl
  · exact .grouped h
  · exact .function h _
  · exact .refuse rfl
  · exact .refuse rfl

/-- The operand that is looked for is read. If it is a number that is too large it is reported, and otherwise its
number is the first one of the tree. -/
theorem accountsAt_operand (h : inner.Accounts) (awaits : s.journal.Awaits s.current) :
    AccountsAt s.current.number?.toList (operand inner) Expression.numbers s := by
  by_cases number : s.current.kind = .integer
  · have run := run_operand_of_integer inner number
    rw [integer] at run
    cases read : Numeral.read? s.current.literal with
    | none =>
      rw [read] at run
      have large : s.current.overflows = true := by rw [Token.overflows, number, read]; rfl
      exact .of_heard run (awaits.reported large) (s.not_silent_diagnosed _)
    | some value =>
      rw [read] at run
      have fits : s.current.overflows = false := by rw [Token.overflows, number, read]; rfl
      have itself : s.current.number? = some (s.current, (value : Int)) := by
        rw [Token.number?, if_pos number, read, Option.map_some]
      exact .of_run run (awaits.accounts fits) (itself ▸ .still rfl)
  · have none : s.current.number? = none := by rw [Token.number?, if_neg number]
    have fits : s.current.overflows = false := by rw [Token.overflows, decide_eq_false number, Bool.false_and]
    have other := accounts_operandOn h number s (awaits.accounts fits)
    rw [none, Option.toList_none]
    exact ⟨other.kept, other.adds⟩

end Rule
end LittleScript
