import LittleScript.Proofs.Layered.Descent
import LittleScript.Rule.Nested

/-!
One loop for all operators. Links that bind tighter than a threshold come first, those of the next
layer behind them; so the loop with the lower threshold is the loop of the layer around the one with
the higher threshold.
-/

namespace LittleScript

open Run

namespace Rule

section
variable {α β γ : Type} {link? : Kind → Option β} {step : β → α → Rule α}

/-- A value stops being extended only where no link follows. -/
private theorem extendFrom_ends (open_end : link? .endOfInput = none) {value w : α} {s t : State}
    (h : extendFrom link? step value s = (some w, t)) : link? t.peek.kind = none := by
  fun_induction extendFrom link? step value s with
  | case1 value s ended =>
    obtain ⟨-, rfl⟩ := Prod.mk.inj h
    rw [State.peek_of_ahead_nil (by simp [State.ahead, ended])]
    exact open_end
  | case2 value s proper unlinked =>
    obtain ⟨-, rfl⟩ := Prod.mk.inj h
    exact unlinked
  | case3 => exact absurd (congrArg Prod.fst h) (by simp)
  | case4 value s proper link linked v u built ih => exact ih h

/-- What every step restores holds in the end, if it held in the beginning. -/
private theorem extendFrom_keeps {Keeps : State → Prop}
    (keeps : ∀ kind link, link? kind = some link → ∀ value s w t,
      (step link value).run s = (some w, t) → Keeps t)
    {value w : α} {s t : State} (start : Keeps s) (h : extendFrom link? step value s = (some w, t)) :
    Keeps t := by
  fun_induction extendFrom link? step value s with
  | case1 value s ended =>
    obtain ⟨-, rfl⟩ := Prod.mk.inj h
    exact start
  | case2 value s proper unlinked =>
    obtain ⟨-, rfl⟩ := Prod.mk.inj h
    exact start
  | case3 => exact absurd (congrArg Prod.fst h) (by simp)
  | case4 value s proper link linked v u built ih =>
    exact ih (keeps _ _ linked _ _ _ _ built) h

/-- Where no link follows, nothing is extended. -/
theorem extendFrom_unlinked {value : α} {s : State} (h : link? s.peek.kind = none) :
    extendFrom link? step value s = (some value, s) := by
  rw [extendFrom]
  split
  · rfl
  · simp only [h]

/-- A link is followed by its step and the rest of the loop. -/
theorem extendFrom_linked {value : α} {s : State} {link : β} (proper : s.tokens ≠ [])
    (h : link? s.peek.kind = some link) :
    extendFrom link? step value s =
      next (fun w => extended link? step w) ((step link value).run s.advance) := by
  rw [extendFrom, dif_neg proper]
  simp only [h]
  split
  · rename_i failed
    rw [failed, next_none]
  · rename_i built
    rw [built, next_some]
    rfl

/-- A loop over many links is a loop over the tighter ones, and around it a loop over the others. -/
private theorem extended_split {tight : Kind → Option β} {own : Kind → Option γ} {ownStep : γ → α → Rule α}
    (embed : γ → β) (tighter : ∀ kind link, tight kind = some link → link? kind = some link)
    (others : ∀ kind, tight kind = none → link? kind = (own kind).map embed)
    (same : ∀ kind x, own kind = some x → ∀ value, step (embed x) value = ownStep x value)
    (ends : ∀ kind x, own kind = some x → ∀ value s w t, (ownStep x value).run s = (some w, t) →
      tight t.peek.kind = none) (value : α) (s : State) :
    (extended link? step value).run s =
      (extended tight step value >>= fun w => extended own ownStep w).run s := by
  simp only [run_bind, run_extended]
  fun_induction extendFrom link? step value s with
  | case1 value s ended =>
    rw [extendFrom.eq_def tight, dif_pos ended, next_some, run_extended, extendFrom.eq_def own,
      dif_pos ended]
  | case2 value s proper unlinked =>
    have loose : tight s.peek.kind = none := by
      cases h : tight s.peek.kind with
      | none => rfl
      | some link => rw [tighter _ _ h] at unlinked; cases unlinked
    have alone : own s.peek.kind = none := by
      rw [others _ loose] at unlinked
      exact Option.map_eq_none_iff.1 unlinked
    rw [extendFrom_unlinked loose, next_some, run_extended, extendFrom_unlinked alone]
  | case3 value s proper link linked t failed =>
    cases h : tight s.peek.kind with
    | some link' =>
      obtain rfl : link' = link := by simpa [linked] using (tighter _ _ h).symm
      rw [extendFrom_linked proper h, failed, next_none, next_none]
    | none =>
      rw [others _ h] at linked
      obtain ⟨x, owned, rfl⟩ := Option.map_eq_some_iff.1 linked
      rw [extendFrom_unlinked h, next_some, run_extended, extendFrom_linked proper owned,
        ← same _ _ owned, failed, next_none]
  | case4 value s proper link linked w t built ih =>
    cases h : tight s.peek.kind with
    | some link' =>
      obtain rfl : link' = link := by simpa [linked] using (tighter _ _ h).symm
      rw [extendFrom_linked proper h, built, next_some, ih]
      rfl
    | none =>
      rw [others _ h] at linked
      obtain ⟨x, owned, rfl⟩ := Option.map_eq_some_iff.1 linked
      rw [same _ _ owned] at built
      rw [extendFrom_unlinked h, next_some, run_extended, extendFrom_linked proper owned, built,
        next_some, ih, extendFrom_unlinked (ends _ _ owned _ _ _ _ built), next_some, run_extended]

end

end Rule

namespace Layered

open Rule

def joined (inner : Inner) : Link → Expression → Rule Expression
  | .binary operator => operation (inner.expression (Link.binary operator).precedence) operator
  | .call => call inner

theorem linked_eq (inner : Inner) (link : Link) (left : Expression) :
    linked inner link left = advance >>= fun _ => joined inner link left := by
  cases link <;> rfl

def climbing (inner : Inner) (precedence : Precedence) : Rule Expression := do
  let left ← operand inner
  extended (linkAbove? precedence) (joined inner) left

/-- No operator stands between products and unary expressions. -/
private theorem linkAbove?_product : linkAbove? .product = linkAbove? .unary := by
  funext kind
  cases kind <;> rfl

private def Ends (precedence : Precedence) (t : State) : Prop := linkAbove? precedence t.peek.kind = none

/-- A threshold, the layer whose operators bind just tighter, and their strength. -/
private inductive Step : Precedence → Layer → Precedence → Prop where
  | equality : Step .lowest .equality .equals
  | comparison : Step .equals .comparison .lessGreater
  | sum : Step .lessGreater .sum .sum
  | product : Step .sum .product .product

namespace Step
variable {low high : Precedence} {layer : Layer}

private theorem strength (h : Step low layer high) : layer.strength = high := by cases h <;> rfl

private theorem tighter (h : Step low layer high) (kind : Kind) (link : Link)
    (above : linkAbove? high kind = some link) : linkAbove? low kind = some link := by
  revert above
  cases h <;> cases kind <;> revert link <;>
    simp [linkAbove?, Link.ofKind?, BinaryOperator.ofKind?, Option.filter] <;> decide

private theorem others (h : Step low layer high) (kind : Kind) (loose : linkAbove? high kind = none) :
    linkAbove? low kind = (layer.operator? kind).map Link.binary := by
  revert loose
  cases h <;> cases kind <;> decide

private theorem ends (h : Step low layer high) {t : State} (loose : Ends high t)
    (last : layer.operator? t.peek.kind = none) : Ends low t := by
  rw [Ends, h.others _ loose, last]
  rfl

end Step

private theorem operandOn_unary (inner : Inner) {token : Token} {operator : UnaryOperator}
    (h : UnaryOperator.ofKind? token.kind = some operator) :
    operandOn inner token = Rule.unary inner token operator := by
  have kind := UnaryOperator.ofKind?_eq_some.1 h
  cases operator <;> simp only [operandOn, ← kind, UnaryOperator.kind]

private theorem operandOn_primary (inner : Inner) {token : Token}
    (h : UnaryOperator.ofKind? token.kind = none) : operandOn inner token = primaryOn inner token := by
  unfold operandOn primaryOn
  split <;> rename_i kind <;> simp_all [UnaryOperator.ofKind?]

/-- Arguments are the only links above the strength of a unary operator. -/
private theorem extended_calls (inner : Inner) (callee : Expression) :
    extended (linkAbove? .unary) (joined inner) callee =
      extended opening? (fun _ => call inner) callee := by
  apply ext_run
  intro s
  have split := @extended_split _ _ _ (linkAbove? .unary) (joined inner) (fun _ => none) opening?
    (fun _ => call inner) (fun _ => Link.call)
  rw [split]
  · rw [run_bind, run_extended, extendFrom_unlinked rfl, next_some]
  · simp
  · intro kind _
    cases kind <;> decide
  · exact fun _ _ _ _ => rfl
  · exact fun _ _ _ _ _ _ _ _ => rfl

/-- A unary expression of the descent ends before anything but arguments. -/
private theorem unary_ends {s t : State} {e : Expression} (h : (unary parser).run s = (some e, t)) :
    Ends .unary t := by
  induction size : s.tokens.length using Nat.strongRecOn generalizing s e with
  | _ size ih =>
    obtain ⟨token, u, read, h⟩ := parts_of_run_bind h
    obtain ⟨rfl, rfl⟩ : s.current = token ∧ s = u := by simpa using read
    cases kind : UnaryOperator.ofKind? s.current.kind with
    | some operator =>
      -- The operand is a unary expression on a shorter input.
      simp only [kind] at h
      obtain ⟨_, u, moved, h⟩ := parts_of_run_bind h
      obtain ⟨operand, v, inside, h⟩ := parts_of_run_bind h
      obtain ⟨-, rfl⟩ : e = _ ∧ v = t := by simpa [eq_comm] using h
      obtain rfl : s.advance = u := by simpa using moved
      have proper : s.current.kind ≠ .endOfInput := by
        rw [← UnaryOperator.ofKind?_eq_some.1 kind]
        cases operator <;> decide
      have shorter := State.length_advance_lt (.refl s) (by rw [State.tokens_of_current proper]; simp)
      rw [parser_expression .unary (by decide)] at inside
      exact ih _ (size ▸ shorter) inside rfl
    | none =>
      simp only [kind] at h
      obtain ⟨callee, u, -, h⟩ := parts_of_run_bind h
      have closed := extendFrom_ends (by decide) h
      rw [opening?] at closed
      rw [Ends]
      revert closed
      cases t.peek.kind <;> decide

/-- An operation ends where its second operand does. -/
private theorem operand_of_operation {operand : Rule Expression} {operator : BinaryOperator}
    {left e : Expression} {s t : State} (h : (operation operand operator left).run s = (some e, t)) :
    ∃ right u, operand.run u = (some right, t) := by
  obtain ⟨token, _, -, h⟩ := parts_of_run_bind h
  obtain ⟨_, u, -, h⟩ := parts_of_run_bind h
  obtain ⟨right, v, inside, h⟩ := parts_of_run_bind h
  obtain ⟨-, rfl⟩ : e = _ ∧ v = t := by simpa [eq_comm] using h
  exact ⟨right, u, inside⟩

/-- A chain ends before an operator that binds less tight than its own. -/
private theorem chain_ends {low high : Precedence} {layer : Layer} (step : Step low layer high)
    {higher : Rule Expression}
    (ends : ∀ {s t e}, higher.run s = (some e, t) → Ends high t) {s t : State} {e : Expression}
    (h : (chain layer higher).run s = (some e, t)) : Ends low t := by
  obtain ⟨first, u, read, h⟩ := parts_of_run_bind h
  apply step.ends
  · have keeps : ∀ kind operator, layer.operator? kind = some operator → ∀ left s w t,
        (operation higher operator left).run s = (some w, t) → Ends high t := by
      intro kind operator _ left s w t built
      obtain ⟨_, _, inside⟩ := operand_of_operation built
      exact ends inside
    exact extendFrom_keeps keeps (ends read) h
  · exact extendFrom_ends (by cases layer <;> rfl) h

/-- An operand with its arguments is a unary expression. -/
private theorem climbing_unary : climbing parser .unary = unary parser := by
  apply ext_run
  intro s
  simp only [climbing, operand, Rule.bind_assoc, unary]
  rw [run_bind, run_bind, run_current, next_some, next_some]
  cases kind : UnaryOperator.ofKind? s.current.kind with
  | some operator =>
    -- Behind the operand of a unary operator no arguments are left.
    have whole : (unary parser).run s = (Rule.unary parser s.current operator).run s := by
      simp only [unary, run_bind, run_current, next_some, kind]
    rw [operandOn_unary _ kind, run_bind]
    cases h : (Rule.unary parser s.current operator).run s with
    | mk value t =>
      cases value with
      | none => rfl
      | some e => exact extendFrom_unlinked (unary_ends (whole.trans h))
  | none =>
    rw [operandOn_primary _ kind, Rule.bind_congr _ (extended_calls parser)]
    rfl

/-- From one threshold to the next lower one, climbing adds the layer between them. -/
private theorem climbing_step {low high : Precedence} {layer : Layer} (step : Step low layer high)
    (ends : ∀ {s t e}, (parser.expression high).run s = (some e, t) → Ends high t)
    (climbs : climbing parser high = parser.expression high) :
    climbing parser low = chain layer (parser.expression high) := by
  apply ext_run
  intro s
  rw [chain, ← climbs, climbing, climbing, Rule.bind_assoc]
  apply congrArg (fun rule : Rule Expression => rule.run s)
  apply Rule.bind_congr
  intro left
  apply ext_run
  intro s
  have right : ∀ operator ∈ layer.operators, joined parser (.binary operator) =
      operation (parser.expression high) operator := by
    intro operator mem
    rw [joined, Layer.strength_of_mem mem, step.strength]
  have split := @extended_split _ _ _ _ (joined parser) _ _ (operation (parser.expression high))
    Link.binary step.tighter step.others
  rw [split]
  · rw [← climbs]
    rfl
  · intro kind operator own value
    rw [right _ (Layer.operator?_eq_some.1 own).2]
  · intro kind operator _ value s w t built
    obtain ⟨_, _, inside⟩ := operand_of_operation built
    exact ends inside

/-- Each expression of the descent ends where its threshold says. -/
private theorem parser_ends {precedence : Precedence} (used : precedence ≠ .call) {s t : State}
    {e : Expression} (h : (parser.expression precedence).run s = (some e, t)) : Ends precedence t := by
  have unaryEnds : ∀ {s t e}, (unary parser).run s = (some e, t) → Ends .product t := by
    intro s t e h
    rw [Ends, linkAbove?_product]
    exact unary_ends h
  have productEnds : ∀ {s t e}, (nonterminal parser .product).run s = (some e, t) → Ends .sum t :=
    chain_ends .product unaryEnds
  have sumEnds : ∀ {s t e}, (nonterminal parser .sum).run s = (some e, t) → Ends .lessGreater t :=
    chain_ends .sum productEnds
  have comparisonEnds : ∀ {s t e}, (nonterminal parser .comparison).run s = (some e, t) → Ends .equals t :=
    chain_ends .comparison sumEnds
  rw [parser_expression _ used] at h
  cases precedence with
  | lowest => exact chain_ends .equality comparisonEnds h
  | equals => exact comparisonEnds h
  | lessGreater => exact sumEnds h
  | sum => exact productEnds h
  | product => exact unaryEnds h
  | unary => exact unary_ends h
  | call => exact absurd rfl used

/-- Climbing reads what the rule of the layer reads, in the same way. -/
theorem climbing_eq {precedence : Precedence} (used : precedence ≠ .call) :
    climbing parser precedence = parser.expression precedence := by
  have atUnary : climbing parser .unary = parser.expression .unary := by
    rw [climbing_unary, parser_expression .unary (by decide)]
    rfl
  have atProduct : climbing parser .product = parser.expression .product := by
    rw [climbing, linkAbove?_product, parser_expression .product (by decide)]
    exact climbing_unary
  have atSum : climbing parser .sum = parser.expression .sum := by
    rw [climbing_step .product (parser_ends (by decide)) atProduct, parser_expression .product (by decide),
      parser_expression .sum (by decide)]
    rfl
  have atLessGreater : climbing parser .lessGreater = parser.expression .lessGreater := by
    rw [climbing_step .sum (parser_ends (by decide)) atSum, parser_expression .sum (by decide),
      parser_expression .lessGreater (by decide)]
    rfl
  have atEquals : climbing parser .equals = parser.expression .equals := by
    rw [climbing_step .comparison (parser_ends (by decide)) atLessGreater,
      parser_expression .lessGreater (by decide),
      parser_expression .equals (by decide)]
    rfl
  cases precedence with
  | lowest =>
    rw [climbing_step .equality (parser_ends (by decide)) atEquals, parser_expression .equals (by decide),
      parser_expression .lowest (by decide)]
    rfl
  | equals => exact atEquals
  | lessGreater => exact atLessGreater
  | sum => exact atSum
  | product => exact atProduct
  | unary => exact atUnary
  | call => exact absurd rfl used

end Layered
end LittleScript
