import LittleScript.Parsed
import LittleScript.Proofs.Rule.Braces.Language

/-!
The nested rules close the blocks that they open, level by level. A brace is passed over where an expression
would start on it, or where no level is left for its block.
-/

namespace LittleScript.Rule

open Run

variable {limit levels : Nat} {s t : State}

/-- No level is left for a block. -/
private theorem losesBrace_refused (opens : s.current.kind = .leftBrace) : s.LosesBrace (refused limit s) := by
  apply State.losesBrace_record
  refine List.any_eq_true.2 ⟨s.current, ?_, ?_⟩
  · rw [State.tokens_of_current (by rw [opens]; decide)]
    exact List.mem_cons_self
  · rw [opens]
    simp

private theorem balanced_block_refused {rule : Rule Block} (opens : s.current.kind = .leftBrace)
    (run : rule.run s = (none, refused limit s)) : Balanced rule s.tokens s := by
  rw [Balanced, run]
  exact .inl (losesBrace_refused opens)

private theorem balanced_block (h : (within limit levels).Balanced) (opens : s.current.kind = .leftBrace) :
    Balanced (block limit (levels + 1)) s.tokens s := by
  by_cases room : s.depth < limit
  · have inside : Balanced ((openBlock (within limit levels)).andReturnLevels 1 >>= closed) s.tokens
        s.takeLevel := by
      refine Balanced.bind ?_ fun tree t => ?_
      · rcases Balanced.openBlock h s.takeLevel with loses | same
        · exact .inl (loses.extend (.refl _) (.returnLevels _ 1))
        · refine .inr fun inner => ?_
          have ahead : (((openBlock (within limit levels)).andReturnLevels 1).run s.takeLevel).2.ahead =
              (fromClosing 0 s.ahead).tail := congrArg List.tail same
          have tokens := State.tokens_of_current (s := s) (by rw [opens]; decide)
          rw [ahead, tokens, fromClosing_leftBrace opens]
          exact fromClosing_add inner 0 s.ahead
      · apply Balanced.still
        rw [run_closed]
        split <;> rfl
    exact inside.step (run_block_succ.trans (if_pos room)) (.takeLevel s)
  · exact balanced_block_refused opens (run_block_succ.trans (if_neg room))

private def ChainBalanced (chain : Chain) (front : List Token) (s : State) : Prop :=
  s.LosesBrace (chain.run s).2.2 ∨
    ∀ inner, fromClosing inner front = fromClosing inner (chain.run s).2.2.ahead

namespace ChainBalanced
variable {chain : Chain} {front : List Token} {held : Nat}

private theorem step {other : Chain} (h : ChainBalanced other front t) (run : chain.run s = other.run t)
    (led : s.Leads t) : ChainBalanced chain front s := by
  rw [ChainBalanced, run]
  rcases h with loses | same
  · exact .inl (loses.extend led (.refl _))
  · exact .inr same

private theorem still {value : Option Expression} (run : chain.run s = (value, held, t))
    (same : t.tokens = s.tokens) : ChainBalanced chain s.ahead s := by
  rw [ChainBalanced, run]
  exact .inr fun inner => by rw [State.ahead, State.ahead, same]

private theorem andThen {rule : Rule Expression} {follow : Expression → Chain} (first : Balanced rule front s)
    (second : ∀ a t, ChainBalanced (follow a) t.ahead t) :
    ChainBalanced (.andThen rule held follow) front s := by
  have led := rule.leads s
  rw [Balanced] at first
  rw [ChainBalanced, Chain.run_andThen]
  generalize rule.run s = outcome at first led
  obtain ⟨built, t⟩ := outcome
  cases built with
  | none => exact first
  | some a =>
    rw [Chain.next_some]
    rcases first with loses | same
    · exact .inl (loses.extend (.refl s) ((follow a).leads t))
    · rcases second a t with loses | same'
      · exact .inl (loses.extend led (.refl _))
      · exact .inr fun inner => (same inner).trans (same' inner)

private theorem close (h : ChainBalanced chain front s) : Balanced chain.close front s := by
  rcases h with loses | same
  · exact .inl (loses.extend (.refl s) (.returnLevels _ _))
  · exact .inr same

end ChainBalanced

private structure BalancedWithin (limit levels : Nat) : Prop where
  inner : (within limit levels).Balanced
  links : ∀ precedence left held s, ChainBalanced (links limit levels precedence left held) s.ahead s

section
variable {precedence : Precedence} {left : Expression} {held : Nat}

/-- An expression that would start on a brace passes over it. -/
private theorem balanced_expression {rule other : Rule Expression} (run : rule.run s = other.run t)
    (led : (entered precedence s).Leads t)
    (h : ¬ s.current.kind.IsBrace → Balanced other s.ahead t) : Balanced rule s.tokens s := by
  by_cases brace : s.current.kind.IsBrace
  · have entry : s.LosesBrace (entered precedence s) := State.losesBrace_record (decide_eq_true brace)
    rw [Balanced, run]
    exact .inl (entry.extend (.refl s) (led.trans (other.leads t)))
  · rcases (h brace).step run ((State.Leads.record s _).trans led) with loses | same
    · exact .inl loses
    · exact .inr fun inner => (State.fromClosing_tokens brace inner).trans (same inner)

private theorem balanced_unlinked (h : linkAbove? precedence s.peek.kind = none) :
    ChainBalanced (links limit levels precedence left held) s.ahead s :=
  .still (run_links_unlinked h) rfl

private theorem balancedWithin_zero (limit : Nat) : BalancedWithin limit 0 where
  inner := by
    refine ⟨fun precedence s => ?_, fun s opens => balanced_block_refused opens run_block_zero⟩
    have run : (expression limit 0 precedence).run s =
        (refuseLevel limit : Rule Expression).run (entered precedence s) := run_expression_zero
    exact balanced_expression run (.refl _) fun _ => Balanced.still rfl
  links precedence left held s := by
    cases above : linkAbove? precedence s.peek.kind with
    | none => exact balanced_unlinked above
    | some link => exact .still (run_links_zero above) rfl

private theorem balancedWithin_succ (h : BalancedWithin limit levels) : BalancedWithin limit (levels + 1) where
  inner := by
    refine ⟨fun precedence s => ?_, fun s opens => balanced_block h.inner opens⟩
    by_cases room : s.depth < limit
    · apply balanced_expression (run_expression_succ.trans (if_pos room)) (.takeLevel _)
      intro _
      apply ChainBalanced.close
      apply ChainBalanced.andThen (Balanced.operandOn h.inner s.current _)
      exact fun left t => h.links precedence left 1 t
    · have run : (expression limit (levels + 1) precedence).run s =
          (refuseLevel limit : Rule Expression).run (entered precedence s) :=
        run_expression_succ.trans (if_neg room)
      exact balanced_expression run (.refl _) fun _ => Balanced.still rfl
  links precedence left held s := by
    cases above : linkAbove? precedence s.peek.kind with
    | none => exact balanced_unlinked above
    | some link =>
      by_cases room : s.depth < limit
      · have other : ¬ s.takeLevel.peek.kind.IsBrace := Balanced.not_isBrace_of_link above
        have rest : ChainBalanced (.andThen (linked (within limit levels) link left) (held + 1) fun left =>
            Rule.links limit levels precedence left (held + 1)) s.ahead s.takeLevel := by
          apply ChainBalanced.andThen (Balanced.linked h.inner link left other)
          exact fun left t => h.links precedence left (held + 1) t
        exact rest.step (by rw [run_links_succ above, if_pos room]) (.takeLevel s)
      · exact .still (t := refused limit s) (by rw [run_links_succ above, if_neg room]) rfl

private theorem balancedWithin (limit levels : Nat) : BalancedWithin limit levels := by
  induction levels with
  | zero => exact balancedWithin_zero limit
  | succ levels ih => exact balancedWithin_succ ih

end

/-- Whatever stands in a block, it is read up to the brace that closes it, or to the end if there is none,
unless a brace is passed over in it: a statement or an expression would start on that, or no level is left
for its block. -/
theorem openBlock_closes (limit levels : Nat) (s : State)
    (kept : ¬ s.LosesBrace ((openBlock (within limit levels)).run s).2) :
    ((openBlock (within limit levels)).run s).2.tokens = fromClosing 0 s.ahead :=
  (Balanced.openBlock (balancedWithin limit levels).inner s).resolve_left kept

/-- Statements that cannot be read do not move the end of a block. -/
theorem openBlock_closes_malformed :
    ¬ (State.start (.ofText "\x7b let; b = ; \x7d c") .empty).LosesBrace
        ((openBlock (within levelLimit levelLimit)).run (.start (.ofText "\x7b let; b = ; \x7d c") .empty)).2 ∧
      ((openBlock (within levelLimit levelLimit)).run
        (.start (.ofText "\x7b let; b = ; \x7d c") .empty)).2.tokens.map Token.location = [⟨1, 14⟩, ⟨1, 16⟩] := by
  have kept : ¬ (State.start (.ofText "\x7b let; b = ; \x7d c") .empty).LosesBrace
      ((openBlock (within levelLimit levelLimit)).run (.start (.ofText "\x7b let; b = ; \x7d c") .empty)).2 := by
    rintro ⟨added, eq, event, mem, loses⟩
    have entries : ∀ event ∈ ((openBlock (within levelLimit levelLimit)).run
        (.start (.ofText "\x7b let; b = ; \x7d c") .empty)).2.journal.latestFirst,
        event.losesBrace (TokenStream.ofText "\x7b let; b = ; \x7d c").tokens = false := by
      decide +kernel
    have keeps := entries event (by rw [eq]; exact List.mem_append_left _ mem)
    exact Bool.false_ne_true (keeps.symm.trans loses)
  refine ⟨kept, ?_⟩
  rw [openBlock_closes _ _ _ kept]
  decide +kernel

/-- A closing brace in place of an expression is passed over. The block goes on behind it to the end, and
nothing is left of the statements on either side. -/
theorem openBlock_misses :
    ((openBlock (within levelLimit levelLimit)).run
        (State.start (.ofText "fn() \x7b x = \x7d y = 1;") .empty).advance.advance.advance).2.tokens ≠
      fromClosing 0 (State.start (.ofText "fn() \x7b x = \x7d y = 1;") .empty).advance.advance.advance.ahead ∧
    (parse "fn() \x7b x = \x7d y = 1;").program.length = 0 ∧
    (parse "fn() \x7b x = \x7d y = 1;").diagnostics =
      [⟨.noExpression .rightBrace, ⟨1, 12⟩⟩, ⟨.unterminatedBlock ⟨1, 6⟩, ⟨1, 20⟩⟩] := by
  decide +kernel

end LittleScript.Rule
