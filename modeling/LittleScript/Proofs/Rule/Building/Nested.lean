import LittleScript.Parsed
import LittleScript.Proofs.Rule.Building.Language

/-!
The nested rules build well-formed trees level by level, so every node of a parsed program is well-formed,
whatever was reported beside it.
-/

namespace LittleScript

open Run

namespace Rule
variable {limit levels : Nat}

private structure BuildsWithin (limit levels : Nat) : Prop where
  inner : (within limit levels).Builds
  links : ∀ precedence left held s, s.Read → left.WellFormed →
    (links limit levels precedence left held).Yields s fun tree _ => tree.WellFormed

private theorem buildsWithin_zero (limit : Nat) : BuildsWithin limit 0 where
  inner := ⟨fun _ _ _ => Yields.of_none run_expression_zero, fun _ _ _ _ _ => Yields.of_none run_block_zero⟩
  links precedence left held s _ first := by
    cases above : linkAbove? precedence s.peek.kind with
    | none => exact .unlinked above first
    | some link => exact .of_none (run_links_zero above)

private theorem buildsWithin_succ (h : BuildsWithin limit levels) : BuildsWithin limit (levels + 1) where
  inner := by
    refine ⟨fun precedence s read => ?_, fun token plain s read same => ?_⟩
    · by_cases room : s.depth < limit
      · refine Yields.of_run ?_ (run_expression_succ.trans (if_pos room))
        have inside : (entered precedence s).takeLevel.Read :=
          read.leads ((State.Leads.record s _).trans (.takeLevel _))
        have first := (Yields.leads (operand (within limit levels)) _).and (Builds.operand h.inner _ inside)
        refine Chain.Yields.close (Chain.Yields.andThen first fun left t built => ?_) fun _ _ _ tree => tree
        exact h.links precedence left 1 t (inside.leads built.1) built.2
      · exact Yields.of_none (run_expression_succ.trans (if_neg room))
    · by_cases room : s.depth < limit
      · refine Yields.of_run ?_ (run_block_succ.trans (if_pos room))
        have inside : s.takeLevel.Read := read.leads (.takeLevel s)
        have body : Yields (openBlock (within limit levels)) s.takeLevel fun tree _ => tree.WellFormed :=
          Builds.openBlock h.inner plain _ inside same
        refine ((Yields.leads _ _).and (body.andReturnLevels 1)).bind fun tree t built => ?_
        exact Builds.closed built.2 t (inside.leads built.1)
      · exact Yields.of_none (run_block_succ.trans (if_neg room))
  links precedence left held s read first := by
    cases above : linkAbove? precedence s.peek.kind with
    | none => exact .unlinked above first
    | some link =>
      by_cases room : s.depth < limit
      · have inside : s.takeLevel.Read := read.leads (.takeLevel s)
        have tree : Yields (linked (within limit levels) link left) s.takeLevel fun tree _ => tree.WellFormed :=
          Builds.linked h.inner read.peek (linkAbove?_eq_some.1 above).1 first _ inside rfl
        refine Chain.Yields.of_run ?_ ((run_links_succ above).trans (if_pos room))
        refine Chain.Yields.andThen ((Yields.leads _ _).and tree) fun left t built => ?_
        exact h.links precedence left (held + 1) t (inside.leads built.1) built.2
      · exact .of_none ((run_links_succ above).trans (if_neg room))

private theorem buildsWithin (limit levels : Nat) : BuildsWithin limit levels := by
  induction levels with
  | zero => exact buildsWithin_zero limit
  | succ levels ih => exact buildsWithin_succ ih

end Rule

/-- Every statement of a parsed text is well-formed, with any limit. -/
theorem Parsed.wellFormed_ofStream (limit : Nat) (text : String) :
    ∀ tree ∈ (ofStream limit (.ofText text)).program, tree.WellFormed := by
  have top := Rule.Builds.topStatement (Rule.buildsWithin limit limit).inner
  refine top.sequenceFrom (fun _ => false) fun token mem => ?_
  exact (TokenStream.lexical_of_mem text token mem).imp id .inr

/-- Every node of a parsed program is well-formed, at any depth and next to any errors. -/
theorem parse_wellFormed (text : String) : ∀ node ∈ (parse text).program.nodes, node.WellFormed :=
  Statement.allNodes_wellFormed (Parsed.wellFormed_ofStream levelLimit text)

/-- A number with zeros in front, behind a statement that is lost. -/
theorem parse_wellFormed_number :
    (parse "let = #; y = -007;").diagnostics ≠ [] ∧
    Node.expression (.integer ⟨.integer, "007", ⟨1, 15⟩⟩ 7) ∈ (parse "let = #; y = -007;").program.nodes ∧
      Token.Denotes ⟨.integer, "007", ⟨1, 15⟩⟩ 7 := by
  have found : (parse "let = #; y = -007;").program.nodes.filterMap Node.number? =
      [(⟨.integer, "007", ⟨1, 15⟩⟩, 7)] := by decide +kernel
  have number : (⟨.integer, "007", ⟨1, 15⟩⟩, 7) ∈
      (parse "let = #; y = -007;").program.nodes.filterMap Node.number? := by
    rw [found]
    exact List.mem_singleton_self _
  obtain ⟨node, mem, same⟩ := List.mem_filterMap.1 number
  obtain rfl := Node.eq_of_number? same
  exact ⟨by decide +kernel, mem, parse_wellFormed _ _ mem⟩

end LittleScript
