import LittleScript.Proofs.Rule.Agreement

/-!
The rules of the language agree when the rules for what stands inside do. What stands inside starts
behind at least one token, so the inner rules have to agree on shorter inputs only.
-/

namespace LittleScript

open Run Rule

structure Inner.Agree (c : Comparison) (size : Nat) (i j : Inner) : Prop where
  expression : ∀ precedence, precedence ≠ .call →
    Rule.Agree c size (i.expression precedence) (j.expression precedence)
  block : Rule.Agree c size i.block j.block

namespace Rule.Agree
variable {c : Comparison} {size : Nat} {i j : Inner}

theorem nextExpression (h : Inner.Agree c size i j) :
    Agree c (size + 1) (nextExpression i) (nextExpression j) :=
  advance_bind (h.expression .lowest (by decide))

private theorem nextBlock (h : Inner.Agree c size i j) : Agree c (size + 1) (nextBlock i) (nextBlock j) :=
  expect_bind fun _ => h.block

private theorem assigned (h : Inner.Agree c size i j) : Agree c (size + 1) (assigned i) (assigned j) := by
  refine (Agree.expect _).bind fun _ => ?_
  refine (nextExpression h).bind fun value => ?_
  exact (Agree.expect _).bind fun _ => .pure value

private theorem binding (h : Inner.Agree c size i j) : Agree c (size + 1) (binding i) (binding j) := by
  refine Agree.current.bind fun token => ?_
  refine (Agree.expect _).bind fun name => ?_
  exact (assigned h).bind fun value => .pure _

private theorem answer (h : Inner.Agree c size i j) : Agree c (size + 1) (answer i) (answer j) := by
  refine Agree.current.bind fun token => ?_
  refine (nextExpression h).bind fun value => ?_
  exact (Agree.expect _).bind fun _ => .pure _

private theorem assignment (h : Inner.Agree c size i j) :
    Agree c (size + 1) (assignment i) (assignment j) := by
  refine Agree.current.bind fun token => ?_
  exact (assigned h).bind fun value => .pure _

private theorem alternative (h : Inner.Agree c size i j) :
    Agree c (size + 1) (alternative i) (alternative j) := by
  refine Agree.peek.bind fun token => ?_
  split
  · exact Agree.advance.bind fun _ => (nextBlock h).bind fun _ => .pure _
  · exact .pure none

private theorem conditional (h : Inner.Agree c size i j) :
    Agree c (size + 1) (conditional i) (conditional j) := by
  refine Agree.current.bind fun token => ?_
  refine (Agree.expect _).bind fun _ => ?_
  refine (nextExpression h).bind fun condition => ?_
  refine (Agree.expect _).bind fun _ => ?_
  refine (nextBlock h).bind fun consequence => ?_
  exact (alternative h).bind fun other => .pure _

private theorem parameter : Agree c size parameter parameter :=
  (Agree.expect _).bind fun _ => .pure _

private theorem signature (h : Inner.Agree c size i j) : Agree c (size + 1) (signature i) (signature j) := by
  refine (Agree.expect _).bind fun _ => ?_
  refine (Agree.listed parameter).bind fun parameters => ?_
  exact (nextBlock h).bind fun body => .pure _

private theorem functionStatement (h : Inner.Agree c size i j) :
    Agree c (size + 1) (functionStatement i) (functionStatement j) := by
  refine Agree.current.bind fun token => ?_
  refine (signature h).bind fun (parameters, body) => ?_
  refine Agree.peek.bind fun next => ?_
  dsimp only
  split
  · exact Agree.advance.bind fun _ => .pure _
  · exact .pure _

private theorem statementOn (h : Inner.Agree c size i j) (token : Token) :
    Agree c (size + 1) (statementOn i token) (statementOn j token) := by
  unfold Rule.statementOn
  cases token.kind with
  | letWord => exact binding h
  | returnWord => exact answer h
  | fnWord => exact functionStatement h
  | ifWord => exact conditional h
  | identifier => exact assignment h
  | illegal => exact .refuse _ _
  | _ => exact .skip

theorem statement (h : Inner.Agree c size i j) : Agree c (size + 1) (statement i) (statement j) := by
  refine Agree.current.bind fun token => ?_
  refine Agree.peek.bind fun next => ?_
  refine (Agree.record _).bind fun _ => ?_
  exact (statementOn h token).andRecord _

theorem openBlock (h : Inner.Agree c size i j) : Agree c (size + 1) (openBlock i) (openBlock j) := by
  refine Agree.current.bind fun token => ?_
  refine Agree.advance.bind fun _ => ?_
  exact ((statement h).sequence _).bind fun _ => .pure _

theorem closed (block : Block) : Agree c size (closed block) (closed block) := by
  refine Agree.current.bind fun last => ?_
  split
  · exact .pure block
  · exact .refuse _ _

theorem integer (token : Token) : Agree c size (integer token) (integer token) := by
  unfold Rule.integer
  cases Numeral.read? token.literal with
  | none => exact .refuse _ _
  | some value => exact .pure _

theorem unary (h : Inner.Agree c size i j) (token : Token) (operator : UnaryOperator) :
    Agree c (size + 1) (unary i token operator) (unary j token operator) :=
  advance_bind ((h.expression .unary (by decide)).bind fun _ => .pure _)

theorem grouped (h : Inner.Agree c size i j) : Agree c (size + 1) (grouped i) (grouped j) := by
  refine (nextExpression h).bind fun expression => ?_
  exact (Agree.expect _).bind fun _ => .pure expression

theorem function (h : Inner.Agree c size i j) (token : Token) :
    Agree c (size + 1) (function i token) (function j token) :=
  (signature h).bind fun (_, _) => .pure _

private theorem operandOn (h : Inner.Agree c size i j) (token : Token) :
    Agree c (size + 1) (operandOn i token) (operandOn j token) := by
  unfold Rule.operandOn
  cases token.kind with
  | identifier => exact .pure _
  | integer => exact integer token
  | bang => exact unary h token .bang
  | minus => exact unary h token .minus
  | trueWord => exact .pure _
  | falseWord => exact .pure _
  | leftParen => exact grouped h
  | fnWord => exact function h token
  | _ => exact .refuse _ _

theorem operand (h : Inner.Agree c size i j) : Agree c (size + 1) (operand i) (operand j) :=
  Agree.current.bind fun token => operandOn h token

theorem linked (h : Inner.Agree c size i j) (link : Link) (left : Expression) :
    Agree c (size + 1) (linked i link left) (linked j link left) := by
  refine Agree.advance.bind fun _ => ?_
  refine Agree.current.bind fun token => ?_
  cases link with
  | binary operator =>
    have used : (Link.binary operator).precedence ≠ .call := by cases operator <;> decide
    exact advance_bind ((h.expression _ used).bind fun _ => .pure _)
  | call => exact (Agree.listed (nextExpression h)).bind fun _ => .pure _

/-- At the end of the input no operand is read, whatever the rules for what stands inside are. -/
private theorem operand_nil (i j : Inner) : Agree c 0 (Rule.operand i) (Rule.operand j) := by
  intro s s' same bound
  have ended := List.eq_nil_of_length_eq_zero (Nat.le_zero.1 bound)
  have mark : s.current = Token.endMark s.finish := by simp [State.current, ended]
  simp only [Rule.operand, run_bind, run_current, next_some, Comparison.current same, mark]
  exact .inr ⟨rfl, c.record _ same⟩

/-- At the end of the input no statement is read. -/
private theorem statement_nil (i j : Inner) : Agree c 0 (Rule.statement i) (Rule.statement j) := by
  intro s s' same bound
  have ended := List.eq_nil_of_length_eq_zero (Nat.le_zero.1 bound)
  have mark : s.current = Token.endMark s.finish := by simp [State.current, ended]
  simp only [Rule.statement, run_bind, run_current, run_peek, next_some, run_record, Comparison.current same,
    Comparison.peek same, mark]
  exact .inr ⟨rfl, c.record _ (c.record _ same)⟩

/-- At the end of the input a block holds nothing. -/
theorem openBlock_nil (i j : Inner) : Agree c 0 (Rule.openBlock i) (Rule.openBlock j) := by
  refine Agree.current.bind fun token => Agree.advance.bind fun _ => ?_
  exact ((statement_nil i j).sequence _).bind fun _ => .pure _

/-- An operand agrees if the rules for what stands inside agree on all shorter inputs. -/
theorem operand_of_shorter (h : ∀ less < size, Inner.Agree c less i j) :
    Agree c size (Rule.operand i) (Rule.operand j) := by
  cases size with
  | zero => exact operand_nil i j
  | succ size => exact operand (h size (Nat.lt_succ_self size))

theorem statement_of_shorter (h : ∀ less < size, Inner.Agree c less i j) :
    Agree c size (Rule.statement i) (Rule.statement j) := by
  cases size with
  | zero => exact statement_nil i j
  | succ size => exact statement (h size (Nat.lt_succ_self size))

theorem openBlock_of_shorter (h : ∀ less < size, Inner.Agree c less i j) :
    Agree c size (Rule.openBlock i) (Rule.openBlock j) := by
  cases size with
  | zero => exact openBlock_nil i j
  | succ size => exact openBlock (h size (Nat.lt_succ_self size))

end Rule.Agree
end LittleScript
