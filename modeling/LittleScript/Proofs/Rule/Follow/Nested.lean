import LittleScript.Proofs.Rule.Follow.Language
import LittleScript.Proofs.Rule.Nested

/-!
The nested rules follow courses level by level, and so does a whole run.
-/

namespace LittleScript

open Run

namespace Rule
variable {limit levels : Nat} {inner : Inner} {item : Rule Statement} {s : State}

def Passes (limit : Nat) (item : Rule Statement) : Prop :=
  ∀ s, s.tokens ≠ [] → Course limit s .statements (item.run s).2.advance

theorem passes_statement (h : inner.Follows limit) : Passes limit (statement inner) := by
  intro s proper
  rw [run_statement]
  by_cases answered : s.current.kind ∈ Kind.answered
  · have inside : Follows limit (statementOn inner s.current) s.begun := Follows.statementOn h answered
    refine Course.statement .none proper answered inside (.inl ?_)
    rw [Option.not_isNone]
  · rw [Follows.statementOn_skip answered]
    exact .skipped .none proper answered (.inl rfl)

private theorem passes_topStatement (h : (within limit limit).Follows limit) :
    Passes limit (topStatement limit) := by
  intro s proper
  rw [run_topStatement, run_statement]
  by_cases answered : s.current.kind ∈ Kind.answered
  · have inside : Follows limit (statementOn (within limit limit) s.current) s.begun :=
      Follows.statementOn h answered
    refine Course.statement .none proper answered inside ?_
    rw [← Option.not_isSome]
    cases ((statementOn (within limit limit) s.current).run s.begun).1 with
    | none => exact .inl rfl
    | some tree => exact .inr ⟨tree, rfl, rfl⟩
  · rw [Follows.statementOn_skip answered]
    exact .skipped .none proper answered (.inl rfl)

/-- Items follow each other up to the end, or up to a token that stops them. -/
theorem course_sequenceFrom (passes : Passes limit item) (stops : Kind → Bool) (found : List Statement)
    (s : State) :
    Course limit s .statements (sequenceFrom item stops found s).2 ∧
      ((sequenceFrom item stops found s).2.tokens = [] ∨
        stops (sequenceFrom item stops found s).2.current.kind = true) := by
  fun_induction sequenceFrom item stops found s with
  | case1 found s ended => exact ⟨.none, .inl ended⟩
  | case2 found s proper stopped => exact ⟨.none, .inr stopped⟩
  | case3 found s proper goes ih => exact ⟨(passes s proper).follow ih.1, ih.2⟩

private theorem follows_block (h : (within limit levels).Follows limit) (opens : s.current.kind = .leftBrace) :
    Follows limit (block limit (levels + 1)) s := by
  by_cases room : s.depth < limit
  · let found := contents limit levels s
    have run : (block limit (levels + 1)).run s =
        (closed (.braced s.current found.1)).run (found.2.returnLevels 1) := run_block_of_room room
    obtain ⟨inside, ended⟩ :=
      course_sequenceFrom (passes_statement h) (· = .rightBrace) [] s.takeLevel.advance
    by_cases closes : found.2.current.kind = .rightBrace
    · apply Follows.of_run (v := some (.braced s.current found.1))
      · rw [run, run_closed]
        exact if_pos closes
      · exact .block .start opens room inside closes
    · have nothing : found.2.tokens = [] := ended.resolve_right fun brace => closes (of_decide_eq_true brace)
      apply Follows.of_run (v := none)
      · rw [run, run_closed]
        exact if_neg closes
      · exact .unterminated .start opens room inside nothing
  · apply Follows.of_run (v := none)
    · rw [run_block_succ, if_neg room]
    · exact .report .start .nestingTooDeep

def ChainFollows (limit : Nat) (chain : Chain) (held : Nat) (s : State) : Prop :=
  ∃ taken, (chain.run s).2.1 = held + taken ∧
    Course limit s (.reading taken (chain.run s).1.isNone) (chain.run s).2.2

theorem chainFollows_andThen {α : Type} {rule : Rule α} {held : Nat} {follow : α → Chain}
    (first : Follows limit rule s) (second : ∀ a t, ChainFollows limit (follow a) held t) :
    ChainFollows limit (.andThen rule held follow) held s := by
  unfold ChainFollows
  rw [Chain.run_andThen]
  cases run : rule.run s with
  | mk value t =>
    rw [Follows, run] at first
    cases value with
    | none => exact ⟨0, rfl, first⟩
    | some a =>
      obtain ⟨taken, holds, course⟩ := second a t
      refine ⟨taken, holds, ?_⟩
      rw [← Nat.zero_add taken]
      exact first.append course

structure FollowsWithin (limit levels : Nat) : Prop where
  inner : (within limit levels).Follows limit
  links : ∀ precedence left held s, ChainFollows limit (links limit levels precedence left held) held s

private theorem chainFollows_unlinked {precedence : Precedence} {left : Expression} {held : Nat}
    (h : linkAbove? precedence s.peek.kind = none) :
    ChainFollows limit (links limit levels precedence left held) held s := by
  unfold ChainFollows
  rw [run_links_unlinked h]
  exact ⟨0, rfl, .start⟩

/-- No level is left for one more link. -/
private theorem chainFollows_refused {chain : Chain} {held : Nat} (h : chain.run s = (none, held, refused limit s)) :
    ChainFollows limit chain held s := by
  unfold ChainFollows
  rw [h]
  exact ⟨0, rfl, .report .start .nestingTooDeep⟩

private theorem followsWithin_zero (limit : Nat) : FollowsWithin limit 0 where
  inner := by
    refine ⟨fun precedence s => ?_, fun s _ => ?_⟩
    · apply Follows.of_run run_expression_zero
      exact .report (.expression .start precedence) .nestingTooDeep
    · apply Follows.of_run run_block_zero
      exact .report .start .nestingTooDeep
  links precedence left held s := by
    cases above : linkAbove? precedence s.peek.kind with
    | none => exact chainFollows_unlinked above
    | some link => exact chainFollows_refused (run_links_zero above)

private theorem followsWithin_succ (h : FollowsWithin limit levels) : FollowsWithin limit (levels + 1) where
  inner := by
    refine ⟨fun precedence s => ?_, fun s opens => follows_block h.inner opens⟩
    have entry : Course limit s (.reading 0 false) (entered precedence s) := .expression .start precedence
    by_cases room : s.depth < limit
    · let chain := Chain.andThen (operand (within limit levels)) 1 fun left =>
        links limit levels precedence left 1
      have run : (expression limit (levels + 1) precedence).run s =
          chain.close.run (entered precedence s).takeLevel := by
        rw [run_expression_succ, if_pos room]
      obtain ⟨taken, holds, course⟩ : ChainFollows limit chain 1 (entered precedence s).takeLevel :=
        chainFollows_andThen (Follows.operand h.inner) fun left t => h.links precedence left 1 t
      have whole := (entry.takeLevel room).append course
      rw [Nat.zero_add, ← holds] at whole
      apply Follows.of_run run
      apply Course.returnLevels
      rw [Nat.zero_add]
      exact whole
    · apply Follows.of_run (v := none)
      · exact run_expression_succ.trans (if_neg room)
      · exact entry.report .nestingTooDeep
  links precedence left held s := by
    cases above : linkAbove? precedence s.peek.kind with
    | none => exact chainFollows_unlinked above
    | some link =>
      by_cases room : s.depth < limit
      · let rest := Chain.andThen (linked (within limit levels) link left) (held + 1) fun left =>
          Rule.links limit levels precedence left (held + 1)
        have run : (Rule.links limit (levels + 1) precedence left held).run s = rest.run s.takeLevel := by
          rw [run_links_succ above, if_pos room]
        obtain ⟨taken, holds, course⟩ : ChainFollows limit rest (held + 1) s.takeLevel :=
          chainFollows_andThen (Follows.linked h.inner link left) fun left t =>
            h.links precedence left (held + 1) t
        unfold ChainFollows
        rw [run]
        exact ⟨1 + taken, by omega, (Course.takeLevel .start room).append course⟩
      · exact chainFollows_refused (by rw [run_links_succ above, if_neg room])

theorem followsWithin (limit levels : Nat) : FollowsWithin limit levels := by
  induction levels with
  | zero => exact followsWithin_zero limit
  | succ levels ih => exact followsWithin_succ ih

end Rule

namespace Run

/-- A whole run is a course, and it ends at the end of its tokens. -/
theorem State.course_finishProgram (s : State) (limit : Nat) :
    Course limit s .statements (s.finishProgram limit).2 ∧ (s.finishProgram limit).2.tokens = [] := by
  obtain ⟨course, ended⟩ := Rule.course_sequenceFrom
    (Rule.passes_topStatement (Rule.followsWithin limit limit).inner) (fun _ => false) [] s
  exact ⟨course, ended.resolve_right Bool.false_ne_true⟩

end Run
end LittleScript
