import LittleScript.Proofs.Rule.Cut.Basic
import LittleScript.Proofs.Rule.Follow.Language

/-!
What is left of each rule of the language in a run that is cut off. Expressions may be built too early, but
then what has to follow them is missing. Of a statement only the `else` may be missing.
-/

namespace LittleScript

open Run

/-- What is left of a statement that is cut off: all of it, or all but the `else` and its block. -/
inductive Statement.Stump : Statement → Option Statement → Prop where
  | same (tree : Statement) : Stump tree (some tree)
  | conditional (token : Token) (condition : Expression) (consequence : Block) (other : Option Block) :
      Stump (.conditional token condition consequence none)
        (some (.conditional token condition consequence other))

structure Inner.Cut (more : List Token) (inner : Inner) : Prop where
  expression : ∀ precedence, Rule.Cut.Item more Rule.Loose (inner.expression precedence)
  block : Rule.Cut.Item more Rule.Firm inner.block
  ended : ∀ precedence s, s.tokens = [] → Rule.Spends False (inner.expression precedence) s

namespace Rule.Cut
variable {more : List Token} {inner : Inner} {s t : State}

private theorem nextExpression (h : inner.Cut more) : Item more Loose (nextExpression inner) := by
  intro s t cuts
  apply advance cuts (h.ended _ _)
  exact h.expression .lowest _ _

private theorem spends_nextExpression (h : inner.Cut more) (ended : s.ahead = []) :
    Spends False (Rule.nextExpression inner) s :=
  .advance ended (h.ended _ _ ended)

private theorem nextBlock (h : inner.Cut more) : Item more Firm (nextBlock inner) := by
  intro s t cuts
  apply expected cuts (by decide)
  exact h.block _ _

/-- An expression and the token that has to follow it. -/
private theorem before {α : Type} (h : inner.Cut more) {kind : Kind} (proper : kind ≠ .endOfInput)
    {follow : Expression → Rule α} {stump : α → Option α → Prop}
    (second : ∀ value, Item more stump (follow value)) :
    Item more stump (do
      let value ← Rule.nextExpression inner
      let _ ← expect kind
      follow value) := by
  intro s t cuts
  apply (nextExpression h s t cuts).bind
  · intro value s t cuts
    apply expected cuts proper
    exact second value _ _
  · exact fun value s ended => Spends.expected ended proper

private theorem assigned (h : inner.Cut more) : Item more Firm (assigned inner) := by
  intro s t cuts
  apply expected cuts (by decide)
  exact before h (by decide) (fun value s t cuts => .pure cuts value) _ _

private theorem binding (h : inner.Cut more) : Item more Statement.Stump (binding inner) := by
  intro s t cuts
  apply current cuts
  apply expected cuts (by decide)
  intro cuts
  exact (assigned h _ _ cuts).bind_firm fun value s t cuts => .pure cuts _

private theorem answer (h : inner.Cut more) : Item more Statement.Stump (answer inner) := by
  intro s t cuts
  apply current cuts
  exact before h (by decide) (fun value s t cuts => .pure cuts _) s t cuts

private theorem assignment (h : inner.Cut more) : Item more Statement.Stump (assignment inner) := by
  intro s t cuts
  apply current cuts
  exact (assigned h s t cuts).bind_firm fun value s t cuts => .pure cuts _

/-- An `else` that is cut off is missing, and the whole run has read on. -/
private theorem alternative {limit : Nat} (h : inner.Cut more) (courses : inner.Follows limit) :
    Item more (fun a o => a = none ∧ ∃ other, o = some other) (alternative inner) := by
  intro s t cuts
  apply peek cuts
  · intro ended silent
    have other : s.peek.kind ≠ .elseWord := by
      rw [State.peek_kind_of_ended ended]
      decide
    have run : (Rule.alternative inner).run s = (some none, s) := by
      rw [Rule.alternative, run_bind, run_peek, next_some, if_neg other]
      rfl
    have course : Follows limit (Rule.alternative inner) t := Follows.alternative courses
    refine .inr ⟨?_, ?_⟩
    · change s.Spent ((Rule.alternative inner).run s).2
      rw [run]
      exact State.spent_refl ended
    · intro a eq
      have value : ((Rule.alternative inner).run s).1 = some a := eq
      rw [run] at value
      exact ⟨(Option.some.inj value).symm, course.built silent⟩
  · intro goes
    split
    · apply advance cuts (fun ended => absurd ended goes)
      intro cuts
      exact (nextBlock h _ _ cuts).bind_firm fun block s t cuts => .pure cuts _
    · exact .pure cuts none

private theorem conditional {limit : Nat} (h : inner.Cut more) (courses : inner.Follows limit) :
    Item more Statement.Stump (conditional inner) := by
  intro s t cuts
  apply current cuts
  apply expected cuts (by decide)
  intro cuts
  apply before h (by decide) _ _ _ cuts
  intro condition s t cuts
  apply (nextBlock h s t cuts).bind_firm
  intro consequence s t cuts
  apply (alternative h courses s t cuts).bind_stump
  · intro other s t _ cuts
    exact .pure cuts _
  · rintro _ _ s t ended ⟨rfl, other, rfl⟩
    refine ⟨State.spent_refl ended, ?_⟩
    rintro _ ⟨⟩
    exact .conditional _ _ _ _

private theorem parameter : Item more Firm parameter := by
  intro s t cuts
  apply expected cuts (by decide)
  intro cuts
  exact .pure cuts _

private theorem signature (h : inner.Cut more) : Item more Firm (signature inner) := by
  intro s t cuts
  apply expected cuts (by decide)
  intro cuts
  apply (listed parameter (fun s ended => Spends.expected ended (by decide)) _ _ cuts).bind_firm
  intro parameters s t cuts
  exact (nextBlock h s t cuts).bind_firm fun body s t cuts => .pure cuts _

/-- A semicolon that may follow a statement may be cut off. -/
private theorem closing (tree : Statement) : Item more Statement.Stump (do
    if (← Rule.peek).kind = .semicolon then
      Rule.advance
    return tree) := by
  intro s t cuts
  apply peek cuts
  · intro ended
    have other : s.peek.kind ≠ .semicolon := by
      rw [State.peek_kind_of_ended ended]
      decide
    have value : ∀ kind, ((if kind = Kind.semicolon then (do Rule.advance; pure tree) else pure tree :
        Rule Statement).run t).1 = some tree := by
      intro kind
      split <;> rfl
    refine fun _ => .inr ⟨?_, ?_⟩
    · rw [run_bind, run_peek, next_some, if_neg other]
      exact State.spent_refl ended
    · rw [run_bind, run_peek, next_some, if_neg other, run_bind, run_peek, next_some, value]
      rintro _ ⟨⟩
      exact .same tree
  · intro goes
    split
    · apply advance cuts (fun ended => absurd ended goes)
      intro cuts
      exact .pure cuts tree
    · exact .pure cuts tree

private theorem functionStatement (h : inner.Cut more) : Item more Statement.Stump (functionStatement inner) := by
  intro s t cuts
  apply current cuts
  apply (signature h s t cuts).bind_firm
  rintro ⟨parameters, body⟩ s t cuts
  exact closing _ s t cuts

private theorem integer (token : Token) : Item more Loose (integer token) := by
  intro s t cuts
  unfold Rule.integer
  cases Numeral.read? token.literal with
  | none => exact .refuse _ _
  | some value => exact .pure cuts _

/-- An operator and the expression behind it. -/
private theorem operated (h : inner.Cut more) (precedence : Precedence) (build : Expression → Expression) :
    Item more Loose (do
      Rule.advance
      return build (← inner.expression precedence)) := by
  intro s t cuts
  apply advance cuts
  · intro ended
    exact (h.ended precedence _ ended).bind fun impossible => impossible.elim
  · intro cuts
    apply (h.expression precedence _ _ cuts).bind_spends
    · exact fun operand s t _ cuts => .pure cuts _
    · exact fun operand s ended => Spends.pure ended _
    · exact fun _ _ _ => trivial

private theorem grouped (h : inner.Cut more) : Item more Loose (grouped inner) :=
  before h (by decide) fun expression _ _ cuts => .pure cuts expression

private theorem function (h : inner.Cut more) (token : Token) : Item more Loose (function inner token) := by
  intro s t cuts
  exact (signature h s t cuts).bind_firm fun _ _ _ cuts => .pure cuts _

theorem operand (h : inner.Cut more) : Item more Loose (operand inner) := by
  intro s t cuts
  apply current cuts
  unfold operandOn
  split
  · exact .pure cuts _
  · exact integer _ s t cuts
  · exact operated h .unary _ s t cuts
  · exact operated h .unary _ s t cuts
  · exact .pure cuts _
  · exact .pure cuts _
  · exact grouped h s t cuts
  · exact function h _ s t cuts
  · exact .refuse _ _
  · exact .refuse _ _

/-- No operand is read at the end. -/
theorem spends_operand (inner : Inner) (ended : s.tokens = []) : Spends False (Rule.operand inner) s := by
  have kind : s.current.kind = .endOfInput := by
    rw [State.current_kind, ended]
    rfl
  have refused : Spends False (operandOn inner s.current) s := by
    unfold operandOn
    rw [kind]
    exact .refuse (State.ahead_of_tokens_nil ended) _ (State.location_current ended)
  exact ⟨refused.spent, refused.value⟩

theorem linked (h : inner.Cut more) (link : Link) (left : Expression) (cuts : s.Cuts more t)
    (goes : s.ahead ≠ []) : Cut more Loose (linked inner link left) s t := by
  apply advance cuts (fun ended => absurd ended goes)
  intro cuts
  apply current cuts
  cases link with
  | binary operator => exact operated h _ _ _ _ cuts
  | call =>
    apply (listed (nextExpression h) (fun s ended => spends_nextExpression h ended) _ _ cuts).bind_firm
    exact fun arguments s t cuts => .pure cuts _

theorem statementOn {limit : Nat} (h : inner.Cut more) (courses : inner.Follows limit) (token : Token) :
    Item more Statement.Stump (statementOn inner token) := by
  intro s t cuts
  unfold Rule.statementOn
  split
  · exact binding h s t cuts
  · exact answer h s t cuts
  · exact functionStatement h s t cuts
  · exact conditional h courses s t cuts
  · exact assignment h s t cuts
  · exact .refuse _ _
  · exact .skip cuts

end Rule.Cut
end LittleScript
