import LittleScript.Proofs.Rule.Nested
import LittleScript.Proofs.Rule.Yielding
import LittleScript.Proofs.Syntax.Height

/-!
How high the trees are that the rules build. An expression that ends in an operand of an operator is not
called, so the level that the operand has opened is not opened twice for the links behind it.
-/

namespace LittleScript

open Run

/-- The rules for what stands inside, with some levels to open. They build nothing without a level, and
where an expression ends no link goes on with it. -/
private structure Inner.Heights (c : Count) (levels : Nat) (inner : Inner) : Prop where
  expression : ∀ precedence s, Rule.Yields (inner.expression precedence) s fun tree t =>
    tree.height c ≤ c.greatest levels ∧ 0 < levels ∧ linkAbove? precedence t.peek.kind = none
  block : ∀ s, Rule.Yields inner.block s fun tree _ => tree.height c ≤ c.greatest levels

namespace Rule.Yields
variable {c : Count} {levels : Nat} {inner : Inner}

private theorem nextExpression (h : inner.Heights c levels) (s : State) :
    Yields (nextExpression inner) s fun tree _ => tree.height c ≤ c.greatest levels :=
  behind fun _ _ => (h.expression .lowest _).weaken fun _ _ fits => fits.1

private theorem nextBlock (h : inner.Heights c levels) (s : State) :
    Yields (nextBlock inner) s fun tree _ => tree.height c ≤ c.greatest levels :=
  behind fun _ t => h.block t

private theorem assigned (h : inner.Heights c levels) (s : State) :
    Yields (assigned inner) s fun tree _ => tree.height c ≤ c.greatest levels := by
  refine behind fun _ t => ?_
  refine (nextExpression h t).bind fun value t fits => ?_
  exact behind fun _ _ => .pure fits

private theorem signature (h : inner.Heights c levels) (s : State) :
    Yields (signature inner) s fun (_, body) _ => body.height c ≤ c.greatest levels := by
  refine behind fun _ t => ?_
  refine behind fun parameters t => ?_
  exact (nextBlock h t).bind fun body t fits => .pure fits

private theorem alternative (h : inner.Heights c levels) (s : State) :
    Yields (alternative inner) s fun other _ => Block.heightAny c other ≤ c.greatest levels := by
  refine behind fun _ t => ?_
  split
  · refine behind fun _ t => ?_
    exact (nextBlock h t).bind fun body t fits => .pure fits
  · exact .pure (Nat.zero_le _)

private theorem conditional (h : inner.Heights c levels) (s : State) :
    Yields (conditional inner) s fun tree _ => tree.height c ≤ c.greatest levels := by
  refine behind fun _ t => behind fun _ t => ?_
  refine (nextExpression h t).bind fun condition t test => ?_
  refine behind fun _ t => ?_
  refine (nextBlock h t).bind fun consequence t block => ?_
  exact (alternative h t).bind fun other t otherwise =>
    .pure (Nat.max_le.2 ⟨test, Nat.max_le.2 ⟨block, otherwise⟩⟩)

private theorem functionStatement (h : inner.Heights c levels) (s : State) :
    Yields (functionStatement inner) s fun tree _ => tree.height c ≤ c.greatest levels := by
  refine behind fun _ t => ?_
  refine (signature h t).bind fun (parameters, body) t fits => ?_
  refine behind fun _ t => ?_
  dsimp only
  split
  · exact behind fun _ _ => .pure fits
  · exact .pure fits

private theorem statementOn (h : inner.Heights c levels) (token : Token) (s : State) :
    Yields (statementOn inner token) s fun tree _ => tree.height c ≤ c.greatest levels := by
  unfold Rule.statementOn
  split
  · refine behind fun _ t => behind fun _ t => ?_
    exact (assigned h t).bind fun value t fits => .pure fits
  · refine behind fun _ t => ?_
    refine (nextExpression h t).bind fun value t fits => ?_
    exact behind fun _ _ => .pure fits
  · exact functionStatement h s
  · exact conditional h s
  · refine behind fun _ t => ?_
    exact (assigned h t).bind fun value t fits => .pure fits
  · exact of_none rfl
  · exact of_none rfl

private theorem statement (h : inner.Heights c levels) (s : State) :
    Yields (statement inner) s fun tree _ => tree.height c ≤ c.greatest levels := by
  intro tree t run
  have value : ((Rule.statementOn inner s.current).run s.begun).1 = some tree := congrArg Prod.fst run
  exact statementOn h s.current s.begun tree _ (Prod.ext value rfl)

private theorem closed {bound : Nat} {tree : Block} (fits : tree.height c ≤ bound) (s : State) :
    Yields (closed tree) s fun tree _ => tree.height c ≤ bound := by
  refine behind fun last t => ?_
  split
  · exact .pure fits
  · exact of_none rfl

/-- A block has a node of its own above its statements. -/
private theorem openBlock (h : inner.Heights c levels) (s : State) :
    Yields (openBlock inner) s fun tree _ => tree.height c ≤ c.greatest levels + c.inward := by
  refine behind fun token t => behind fun _ t => ?_
  refine (sequence (fun t _ => statement h t) (· = .rightBrace)).bind fun body t fits => ?_
  exact .pure (Nat.add_le_add_right (Statement.heightAll_le fits) c.inward)

end Rule.Yields

/-- With `free` levels left for links, the tree can still be linked without becoming higher than `bound`:
with a level for each, or, if it cannot be called, with one for the last operand. -/
private def Expression.Extends (c : Count) (bound free : Nat) (tree : Expression) (s : State) : Prop :=
  tree.height c + c.leftward * free ≤ bound ∨
    (s.peek.kind ≠ .leftParen ∧ 0 < free ∧ tree.height c + c.leftward * (free - 1) ≤ bound)

namespace Rule.Yields
variable {c : Count} {limit levels free bound : Nat} {inner : Inner}

/-- Behind an operator and its operand no call follows. -/
private theorem not_leftParen {precedence : Precedence} (below : precedence < .call) {kind : Kind}
    (ends : linkAbove? precedence kind = none) : kind ≠ .leftParen := by
  rintro rfl
  have made : linkAbove? precedence .leftParen = some .call :=
    linkAbove?_eq_some.2 ⟨ofKind?_call.2 rfl, below⟩
  rw [made] at ends
  cases ends

private theorem integer (token : Token) (s : State) :
    Yields (integer token) s fun tree _ => tree.height c ≤ 0 := by
  unfold Rule.integer
  split
  · exact .pure (Nat.le_refl 0)
  · exact of_none rfl

private theorem unary (h : inner.Heights c levels) (token : Token) (operator : UnaryOperator) (s : State) :
    Yields (unary inner token operator) s (Expression.Extends c (c.greatest (levels + 1)) levels) := by
  refine behind fun _ t => ?_
  refine (h.expression .unary t).bind fun operand t fits => ?_
  obtain ⟨height, room, ends⟩ := fits
  refine .pure (.inr ⟨not_leftParen (by decide) ends, room, ?_⟩)
  rw [Expression.height, Nat.add_assoc]
  exact Nat.le_trans (Nat.add_le_add_right height _) (c.inward_le_greatest levels)

private theorem operand (h : inner.Heights c levels) (s : State) :
    Yields (operand inner) s (Expression.Extends c (c.greatest (levels + 1)) levels) := by
  have inside : ∀ (tree : Expression) (t : State), tree.height c ≤ c.greatest levels →
      tree.Extends c (c.greatest (levels + 1)) levels t :=
    fun tree t fits => .inl (Nat.le_trans (Nat.add_le_add_right fits _) (c.leftward_le_greatest levels))
  refine behind fun token t => ?_
  unfold operandOn
  split
  · exact .pure (inside _ _ (Nat.zero_le _))
  · exact (integer token t).weaken fun tree u fits => inside tree u (Nat.le_trans fits (Nat.zero_le _))
  · exact unary h token .bang t
  · exact unary h token .minus t
  · exact .pure (inside _ _ (Nat.zero_le _))
  · exact .pure (inside _ _ (Nat.zero_le _))
  · refine (nextExpression h t).bind fun tree t fits => ?_
    exact behind fun _ _ => .pure (inside _ _ fits)
  · exact (signature h t).bind fun (parameters, body) t fits => .pure (inside _ _ fits)
  · exact of_none rfl
  · exact of_none rfl

private theorem precedence_lt_call (operator : BinaryOperator) : (Link.binary operator).precedence < .call := by
  cases operator <;> decide

/-- A link uses up one of the levels that are left. -/
private theorem linked (h : inner.Heights c free) {precedence : Precedence} {link : Link} {left : Expression}
    {s : State} (above : linkAbove? precedence s.peek.kind = some link)
    (room : c.greatest (free + 1) + c.leftward * (free + 1) ≤ bound)
    (fits : left.Extends c bound (free + 1) s) :
    Yields (linked inner link left) s (Expression.Extends c bound free) := by
  have next : c.leftward * (free + 1) = c.leftward * free + c.leftward := Nat.mul_succ c.leftward free
  have inside := c.inward_le_greatest free
  refine behind fun _ t => behind fun token t => ?_
  cases link with
  | binary operator =>
    refine behind fun _ t => ?_
    refine (h.expression _ t).bind fun right t second => ?_
    obtain ⟨height, levels, ends⟩ := second
    refine .pure (.inr ⟨not_leftParen (precedence_lt_call operator) ends, levels, ?_⟩)
    -- The right operand has used a level, so one of those that are left is not needed for it.
    have last : c.leftward * free = c.leftward * (free - 1) + c.leftward := by
      rw [← Nat.mul_succ, Nat.succ_eq_add_one, Nat.sub_add_cancel levels]
    have first : left.height c + c.leftward * free ≤ bound := by
      rcases fits with fits | ⟨-, -, fits⟩
      · omega
      · exact fits
    rw [Expression.height]
    omega
  | call =>
    have opens : s.peek.kind = .leftParen := ofKind?_call.1 (linkAbove?_eq_some.1 above).1
    have first : left.height c + c.leftward * (free + 1) ≤ bound :=
      fits.resolve_right fun other => other.1 opens
    refine (listed fun t _ => nextExpression h t).bind fun arguments t all => ?_
    have highest := Expression.heightAll_le all
    refine .pure (.inl ?_)
    rw [Expression.height]
    omega

end Rule.Yields

namespace Rule
variable {c : Count} {limit levels : Nat}

private def Settled (c : Count) (bound : Nat) (precedence : Precedence) (tree : Expression) (s : State) : Prop :=
  tree.height c ≤ bound ∧ linkAbove? precedence s.peek.kind = none

private structure HeightsWithin (c : Count) (limit levels : Nat) : Prop where
  inner : (within limit levels).Heights c levels
  links : ∀ bound precedence left held s, c.greatest levels + c.leftward * levels ≤ bound →
    left.Extends c bound levels s →
      (links limit levels precedence left held).Yields s (Settled c bound precedence)

section
variable {bound held : Nat} {precedence : Precedence} {left : Expression} {s : State}

/-- Where no link follows, the tree stays as it is. -/
private theorem settled_unlinked (h : linkAbove? precedence s.peek.kind = none)
    (fits : left.Extends c bound levels s) :
    (links limit levels precedence left held).Yields s (Settled c bound precedence) := by
  refine .unlinked h ⟨?_, h⟩
  rcases fits with fits | ⟨-, -, fits⟩
  · exact Nat.le_of_add_right_le fits
  · exact Nat.le_of_add_right_le fits

private theorem heightsWithin_zero (limit : Nat) : HeightsWithin c limit 0 where
  inner := ⟨fun _ _ => .of_none run_expression_zero, fun _ => .of_none run_block_zero⟩
  links bound precedence left held s _ fits := by
    cases above : linkAbove? precedence s.peek.kind with
    | none => exact settled_unlinked above fits
    | some link => exact .of_none (run_links_zero above)

private theorem heightsWithin_succ (h : HeightsWithin c limit levels) : HeightsWithin c limit (levels + 1) where
  inner := by
    refine ⟨fun precedence s => ?_, fun s => ?_⟩
    · by_cases room : s.depth < limit
      · have chain : (Chain.andThen (operand (within limit levels)) 1 fun left =>
            Rule.links limit levels precedence left 1).Yields (entered precedence s).takeLevel
              (Settled c (c.greatest (levels + 1)) precedence) := by
          refine Chain.Yields.andThen (Yields.operand h.inner _) fun left t fits => ?_
          exact h.links _ precedence left 1 t (c.leftward_le_greatest levels) fits
        refine Yields.of_run ?_ (run_expression_succ.trans (if_pos room))
        exact chain.close fun tree t _ ends => ⟨ends.1, Nat.succ_pos levels, ends.2⟩
      · exact .of_none (run_expression_succ.trans (if_neg room))
    · by_cases room : s.depth < limit
      · refine Yields.of_run ?_ (run_block_succ.trans (if_pos room))
        refine ((Yields.openBlock h.inner _).andReturnLevels 1).bind fun tree t fits => ?_
        have grows := c.inward_le_greatest levels
        exact (Yields.closed fits t).weaken fun tree t fits => by omega
      · exact .of_none (run_block_succ.trans (if_neg room))
  links bound precedence left held s room fits := by
    cases above : linkAbove? precedence s.peek.kind with
    | none => exact settled_unlinked above fits
    | some link =>
      by_cases opens : s.depth < limit
      · have first : Yields (linked (within limit levels) link left) s.takeLevel
            (Expression.Extends c bound levels) := Yields.linked h.inner above room fits
        have rest : (Chain.andThen (linked (within limit levels) link left) (held + 1) fun left =>
            Rule.links limit levels precedence left (held + 1)).Yields s.takeLevel
              (Settled c bound precedence) := by
          refine Chain.Yields.andThen first fun left t fits => ?_
          refine h.links bound precedence left (held + 1) t (Nat.le_trans ?_ room) fits
          exact Nat.add_le_add (Nat.le_add_right _ _) (Nat.mul_le_mul_left _ (Nat.le_succ levels))
        exact rest.of_run (by rw [run_links_succ above, if_pos opens])
      · exact .of_none (by rw [run_links_succ above, if_neg opens])

private theorem heightsWithin (c : Count) (limit levels : Nat) : HeightsWithin c limit levels := by
  induction levels with
  | zero => exact heightsWithin_zero limit
  | succ levels ih => exact heightsWithin_succ ih

end

/-- The statements of a program are no higher than the limit allows. -/
private theorem height_topStatement (c : Count) (limit : Nat) (s : State) :
    Yields (topStatement limit) s fun tree _ => tree.height c ≤ c.greatest limit := by
  refine (Yields.statement (heightsWithin c limit limit).inner s).bind fun tree t fits => ?_
  exact Yields.behind fun _ _ => .pure fits

end Rule

/-- No program is higher than its limit allows, whatever was reported beside it. -/
theorem Parsed.height_ofStream_le (c : Count) (limit : Nat) (stream : TokenStream) :
    (ofStream limit stream).program.height c ≤ c.greatest limit := by
  apply Statement.heightAll_le
  exact Rule.Yields.sequenceFrom (fun s _ => Rule.height_topStatement c limit s) (fun _ => false)
    fun _ none => absurd none List.not_mem_nil

end LittleScript
