import LittleScript.Parsed
import LittleScript.Proofs.Rule.Keeping.Language
import LittleScript.Proofs.Token.Order

/-!
The nested rules keep tokens in their order level by level, so a parsed program lists tokens of its text in
reading order, whatever was reported beside it.
-/

namespace LittleScript

open Run

namespace Rule
variable {limit levels : Nat}

private structure KeepsWithin (limit levels : Nat) : Prop where
  inner : (within limit levels).Keeps
  links : ∀ precedence left held s, (links limit levels precedence left held).Yields s fun tree t =>
    (tree.tokens ++ t.ahead).Sublist (left.tokens ++ s.ahead)

private theorem keepsWithin_zero (limit : Nat) : KeepsWithin limit 0 where
  inner := ⟨fun _ _ => .of_none run_expression_zero, fun _ _ _ _ => .of_none run_block_zero⟩
  links precedence left held s := by
    cases above : linkAbove? precedence s.peek.kind with
    | none => exact .unlinked above (.refl _)
    | some link => exact .of_none (run_links_zero above)

private theorem keepsWithin_succ (h : KeepsWithin limit levels) : KeepsWithin limit (levels + 1) where
  inner := by
    refine ⟨fun precedence s => ?_, fun token opens s same => ?_⟩
    · by_cases room : s.depth < limit
      · refine Yields.of_run ?_ (run_expression_succ.trans (if_pos room))
        have chain : (Chain.andThen (operand (within limit levels)) 1 fun left =>
            Rule.links limit levels precedence left 1).Yields (entered precedence s).takeLevel fun tree t =>
              (tree.tokens ++ t.ahead).Sublist s.tokens := by
          refine Chain.Yields.andThen (Keeps.operand h.inner _) fun left t kept => ?_
          intro tree count u run
          exact (h.links precedence left 1 t tree count u run).trans kept
        exact chain.close fun _ _ _ kept => kept
      · exact .of_none (run_expression_succ.trans (if_neg room))
    · by_cases room : s.depth < limit
      · have inside : ((contents limit levels s).1.flatMap Statement.tokens ++
            (contents limit levels s).2.tokens).Sublist s.ahead :=
          Keeps.sequenceFrom (Keeps.statement h.inner) _ [] _
        refine Yields.of_run ((Keeps.closed _ _).weaken ?_) (run_block_of_room room)
        rintro _ _ ⟨rfl, rfl⟩
        rw [Block.tokens, Statement.allTokens_eq_flatMap, same]
        -- The closing brace is passed, but no node keeps it.
        exact (((List.tail_sublist _).append_left _).trans inside).cons_cons token
      · exact .of_none (run_block_succ.trans (if_neg room))
  links precedence left held s := by
    cases above : linkAbove? precedence s.peek.kind with
    | none => exact .unlinked above (.refl _)
    | some link =>
      by_cases room : s.depth < limit
      · refine Chain.Yields.of_run ?_ ((run_links_succ above).trans (if_pos room))
        have made : Link.ofKind? s.takeLevel.peek.kind = some link := (linkAbove?_eq_some.1 above).1
        refine Chain.Yields.andThen (Keeps.linked h.inner made left) fun next t kept => ?_
        intro tree count u run
        exact (h.links precedence next (held + 1) t tree count u run).trans kept
      · exact .of_none ((run_links_succ above).trans (if_neg room))

private theorem keepsWithin (limit levels : Nat) : KeepsWithin limit levels := by
  induction levels with
  | zero => exact keepsWithin_zero limit
  | succ levels ih => exact keepsWithin_succ ih

end Rule

/-- A program lists tokens of its stream in their order, whatever was reported. -/
private theorem Parsed.tokens_ofStream (limit : Nat) (stream : TokenStream) :
    (ofStream limit stream).program.tokens.Sublist stream.tokens := by
  have kept := Rule.Keeps.sequenceFrom (Rule.Keeps.topStatement (Rule.keepsWithin limit limit).inner)
    (fun _ => false) [] (State.start stream .empty)
  rw [Program.tokens, Statement.allTokens_eq_flatMap]
  exact (List.sublist_append_left _ _).trans kept

/-- The tokens that the nodes of a parsed program keep are tokens of the text in reading order, also where
something was reported. So no two nodes keep the same token, and statements do not overlap. -/
theorem parse_tokens (text : String) :
    (parse text).program.tokens.Sublist (TokenStream.ofText text).tokens ∧
      (parse text).program.tokens.Pairwise (fun a b => a.location < b.location) ∧
      (parse text).program.Pairwise fun s t => ∀ a ∈ s.tokens, ∀ b ∈ t.tokens, a.location < b.location := by
  have kept := Parsed.tokens_ofStream levelLimit (.ofText text)
  have order := (List.pairwise_append.1 (TokenStream.ordered_toList text)).1.sublist kept
  refine ⟨kept, order, ?_⟩
  rw [Program.tokens, Statement.allTokens_eq_flatMap, List.pairwise_flatMap] at order
  exact order.2

end LittleScript
