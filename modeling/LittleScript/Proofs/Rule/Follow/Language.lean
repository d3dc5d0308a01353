import LittleScript.Proofs.Rule.Reading
import LittleScript.Proofs.Run.Course
import LittleScript.Rule.Operand

/-!
Every rule of the language follows a course of a run. A rule that builds nothing has reported why, and
that was the last report.
-/

namespace LittleScript

open Run

namespace Rule

/-- From `s`, the rule follows a course on which it is refused exactly if it builds nothing. -/
def Follows (limit : Nat) {α : Type} (rule : Rule α) (s : State) : Prop :=
  Course limit s (.reading 0 (rule.run s).1.isNone) (rule.run s).2

namespace Follows
variable {limit : Nat} {α β : Type} {rule : Rule α} {follow : α → Rule β} {s t : State} {a : α}

theorem of_run {v : Option α} (run : rule.run s = (v, t))
    (course : Course limit s (.reading 0 v.isNone) t) : Follows limit rule s := by
  rw [Follows, run]
  exact course

/-- A silent run builds something. -/
theorem built (h : Follows limit rule s) (silent : s.Silent (rule.run s).2) :
    ∃ a, (rule.run s).1 = some a := by
  cases value : (rule.run s).1 with
  | none =>
    rw [Follows, value] at h
    exact absurd silent h.not_silent
  | some a => exact ⟨a, rfl⟩

protected theorem pure (a : α) : Follows limit (pure a) s := Course.start

private theorem refuse {cause : Cause} {location : Location} (fitting : s.Reportable limit ⟨cause, location⟩) :
    Follows limit (refuse cause location : Rule α) s := Course.report .start fitting

private theorem step (run : rule.run s = (some a, t)) (first : Course limit s (.reading 0 false) t)
    (second : Follows limit (follow a) t) : Follows limit (rule >>= follow) s := by
  apply of_run (v := ((follow a).run t).1) (t := ((follow a).run t).2)
  · rw [run_bind, run, next_some]
  · exact first.append second

protected theorem bind (first : Follows limit rule s) (second : ∀ a t, Follows limit (follow a) t) :
    Follows limit (rule >>= follow) s := by
  cases run : rule.run s with
  | mk value t =>
    rw [Follows, run] at first
    cases value with
    | none =>
      apply of_run (v := none) (t := t)
      · rw [run_bind, run, next_none]
      · exact first
    | some a => exact step run first (second a t)

private theorem current {follow : Token → Rule β} (second : Follows limit (follow s.current) s) :
    Follows limit (Rule.current >>= follow) s := step (run_current s) .start second

private theorem peek {follow : Token → Rule β} (second : Follows limit (follow s.peek) s) :
    Follows limit (Rule.peek >>= follow) s := step (run_peek s) .start second

private theorem advance {follow : Unit → Rule β} (second : Follows limit (follow ()) s.advance) :
    Follows limit (Rule.advance >>= follow) s := step (run_advance s) (.advance .start) second

/-- A token that is expected becomes the current one. -/
private theorem expected {follow : Token → Rule β} {kind : Kind}
    (second : s.peek.kind = kind → Follows limit (follow s.peek) s.advance) :
    Follows limit (expect kind >>= follow) s := by
  by_cases there : s.peek.kind = kind
  · exact step (by rw [run_expect, if_pos there]) (.advance .start) (second there)
  · apply of_run (v := none)
    · rw [run_bind, run_expect, if_neg there, next_none]
    · exact .report .start (.unexpected there)

private theorem items (item : ∀ s, Follows limit rule s) (found : List α) :
    Follows limit (items rule found) s := by
  change Course limit s (.reading 0 (itemsFrom rule found s).1.isNone) (itemsFrom rule found s).2
  fun_induction itemsFrom rule found s with
  | case1 found s comma t failed =>
    have read := item s.advance
    rw [Follows, failed] at read
    exact (Course.advance .start).append read
  | case2 found s comma a t built ih =>
    have read := item s.advance
    rw [Follows, built] at read
    exact ((Course.advance .start).append read).append ih
  | case3 found s other => exact .start

theorem listed (item : ∀ s, Follows limit rule s) : Follows limit (listed rule) s := by
  apply peek
  split
  · exact advance (.pure [])
  · apply (item s).bind
    intro first t
    apply (items item [first]).bind
    intro all u
    exact expected fun _ => .pure all

end Follows
end Rule

structure Inner.Follows (limit : Nat) (inner : Inner) : Prop where
  expression : ∀ precedence s, Rule.Follows limit (inner.expression precedence) s
  block : ∀ s, s.current.kind = .leftBrace → Rule.Follows limit inner.block s

namespace Rule.Follows
variable {limit : Nat} {inner : Inner} {s : State}

theorem nextExpression (h : inner.Follows limit) : Follows limit (nextExpression inner) s :=
  advance (h.expression .lowest _)

theorem nextBlock (h : inner.Follows limit) : Follows limit (nextBlock inner) s :=
  expected fun opens => h.block _ opens

theorem assigned (h : inner.Follows limit) : Follows limit (assigned inner) s := by
  apply expected
  intro _
  apply (nextExpression h).bind
  intro value t
  exact expected fun _ => .pure value

theorem binding (h : inner.Follows limit) : Follows limit (binding inner) s := by
  apply current
  apply expected
  intro _
  exact (assigned h).bind fun _ _ => .pure _

theorem answer (h : inner.Follows limit) : Follows limit (answer inner) s := by
  apply current
  apply (nextExpression h).bind
  intro value t
  exact expected fun _ => .pure _

theorem assignment (h : inner.Follows limit) : Follows limit (assignment inner) s := by
  apply current
  exact (assigned h).bind fun _ _ => .pure _

theorem alternative (h : inner.Follows limit) : Follows limit (alternative inner) s := by
  apply peek
  split
  · apply advance
    exact (nextBlock h).bind fun _ _ => .pure _
  · exact .pure none

theorem conditional (h : inner.Follows limit) : Follows limit (conditional inner) s := by
  apply current
  apply expected
  intro _
  apply (nextExpression h).bind
  intro condition t
  apply expected
  intro _
  apply (nextBlock h).bind
  intro consequence u
  exact (alternative h).bind fun _ _ => .pure _

theorem parameter : Follows limit parameter s := expected fun _ => .pure _

theorem signature (h : inner.Follows limit) : Follows limit (signature inner) s := by
  apply expected
  intro _
  apply (listed fun _ => parameter).bind
  intro parameters t
  exact (nextBlock h).bind fun _ _ => .pure _

theorem functionStatement (h : inner.Follows limit) : Follows limit (functionStatement inner) s := by
  apply current
  apply (signature h).bind
  rintro ⟨parameters, body⟩ t
  apply peek
  dsimp only
  split
  · exact advance (.pure _)
  · exact .pure _

private theorem integer (kind : s.current.kind = .integer) : Follows limit (integer s.current) s := by
  unfold Rule.integer
  cases read : Numeral.read? s.current.literal with
  | none =>
    have large : Numeral.largest < Numeral.value s.current.literal.toList := by
      unfold Numeral.read? at read
      split at read
      · cases read
      · omega
    exact refuse (.integerTooLarge kind large)
  | some value => exact .pure _

theorem unary (h : inner.Follows limit) (token : Token) (operator : UnaryOperator) :
    Follows limit (unary inner token operator) s := by
  apply advance
  exact (h.expression .unary _).bind fun _ _ => .pure _

theorem grouped (h : inner.Follows limit) : Follows limit (grouped inner) s := by
  apply (nextExpression h).bind
  intro expression t
  exact expected fun _ => .pure expression

theorem function (h : inner.Follows limit) (token : Token) : Follows limit (function inner token) s :=
  (signature h).bind fun _ _ => .pure _

theorem operand (h : inner.Follows limit) : Follows limit (operand inner) s := by
  apply current
  unfold operandOn
  split
  · exact .pure _
  · exact integer ‹_›
  · exact unary h _ .bang
  · exact unary h _ .minus
  · exact .pure _
  · exact .pure _
  · exact grouped h
  · exact function h _
  · exact refuse (.illegalCharacter ‹_›)
  · rename_i names numbers negates subtracts affirms denies opens defines legal
    refine refuse (.noExpression ?_ legal)
    simp only [Grammar.operandBeginnings, List.mem_cons, List.not_mem_nil, or_false, not_or]
    exact ⟨names, numbers, negates, subtracts, affirms, denies, opens, defines⟩

theorem linked (h : inner.Follows limit) (link : Link) (left : Expression) :
    Follows limit (linked inner link left) s := by
  apply advance
  apply current
  cases link with
  | binary operator =>
    apply advance
    exact (h.expression _ _).bind fun _ _ => .pure _
  | call => exact (listed fun _ => nextExpression h).bind fun _ _ => .pure _

/-- A statement that may start on the current token, and the move behind it. -/
theorem statementOn (h : inner.Follows limit) (answered : s.current.kind ∈ Kind.answered) :
    Follows limit (statementOn inner s.current) s := by
  unfold Rule.statementOn
  split
  · exact binding h
  · exact answer h
  · exact functionStatement h
  · exact conditional h
  · exact assignment h
  · exact refuse (.illegalCharacter ‹_›)
  · rename_i binds answers defines tests names illegal
    simp only [Kind.answered, Grammar.beginnings, List.mem_cons, List.not_mem_nil, or_false] at answered
    obtain character | bind | answer | define | test | name := answered
    · exact absurd character illegal
    · exact absurd bind binds
    · exact absurd answer answers
    · exact absurd define defines
    · exact absurd test tests
    · exact absurd name names

theorem statementOn_skip {token : Token} (other : token.kind ∉ Kind.answered) :
    Rule.statementOn inner token = skip := by
  unfold Rule.statementOn
  split
  all_goals first | rfl | (rename_i kind; rw [kind] at other; exact absurd (by decide) other)

end Rule.Follows

end LittleScript
