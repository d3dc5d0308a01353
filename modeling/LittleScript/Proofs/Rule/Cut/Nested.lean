import LittleScript.Proofs.Rule.Cut.Language
import LittleScript.Proofs.Rule.Follow.Nested

/-!
The nested rules in a run that is cut off, level by level, and the statements of a block and of a program.
Both runs have the same levels open, so the first one is refused a level only where the second one is, or
at its end.
-/

namespace LittleScript.Rule

open Run

variable {more : List Token} {limit levels : Nat} {inner : Inner} {s t : State}

namespace Cut
variable {α : Type} {rule : Rule α} {stump : α → Option α → Prop}

/-- An entry at the end that holds no diagnostic. -/
private theorem andRecord {event : Option α → Event} (h : Cut more stump rule s t)
    (unheard : ∀ value, (event value).diagnostic? = none) : Cut more stump (rule.andRecord event) s t := by
  intro silent
  have ended := (rule.run s).2.quiet_record (event (rule.run s).1) (unheard _)
  have ended' := (rule.run t).2.quiet_record (event (rule.run t).1) (unheard _)
  rcases h (Eq.trans (Eq.symm ended'.silent) silent) with ⟨same, cuts, quiet⟩ | ⟨spent, built⟩
  · exact .inl ⟨same, cuts.record _ _, Eq.trans ended.silent quiet⟩
  · exact .inr ⟨spent.trans ((State.Leads.record _ _).spent ended.silent spent.ahead), built⟩

private theorem statement (h : inner.Cut more) (courses : inner.Follows limit) :
    Item more Statement.Stump (statement inner) := by
  intro s t cuts
  have body : Cut more Statement.Stump (Rule.statementOn inner s.current) s.begun t.begun :=
    statementOn h courses s.current _ _ (cuts.record _ _)
  have whole : Cut more Statement.Stump ((Rule.statementOn inner s.current).andRecord fun built =>
      .statementEnded s.current built.isSome) s.begun t.begun := body.andRecord fun _ => rfl
  apply whole.step
  · rfl
  · rw [run_statement, cuts.current]
    rfl
  · exact .record s _
  · exact (s.quiet_record _ rfl).silent
  · exact (t.quiet_record _ rfl).silent

private theorem topStatement (h : (within limit limit).Cut more) (courses : (within limit limit).Follows limit) :
    Item more Statement.Stump (topStatement limit) := by
  intro s t cuts
  apply (statement h courses s t cuts).bind_stump
  · intro tree s t _ cuts
    exact (Cut.pure (cuts.record _ _) tree).step rfl rfl (.record s _) (s.quiet_record _ rfl).silent
      (t.quiet_record _ rfl).silent
  · rintro tree built s t ended cropped
    have kept : s.Spent (s.record (.kept tree)) :=
      (State.Leads.record s _).spent (s.quiet_record _ rfl).silent ended
    refine ⟨kept, ?_⟩
    rintro _ ⟨⟩
    cases cropped with
    | same => exact .same tree
    | conditional => exact .conditional _ _ _ _

/-- At the end no block is closed. -/
private theorem spends_closed (tree : Block) (ended : s.tokens = []) : Spends False (closed tree) s := by
  have other : s.current.kind ≠ .rightBrace := by
    rw [State.current_kind, ended]
    decide
  have refused : Spends False (refuse (.unterminatedBlock tree.token.location) s.current.location :
      Rule Block) s := .refuse (State.ahead_of_tokens_nil ended) _ (State.location_current ended)
  refine ⟨?_, ?_⟩
  · rw [run_closed, if_neg other]
    exact refused.spent
  · rw [run_closed, if_neg other]
    exact refused.value

private theorem closed (tree : Block) : Item more Firm (closed tree) := by
  intro s t cuts
  apply current cuts
  split
  · exact .pure cuts tree
  · exact .refuse _ _

/-- Behind the opening brace, both runs find the same in a block, or the first one comes to its end. -/
private theorem contents (h : (within limit levels).Cut more) (courses : (within limit levels).Follows limit)
    (cuts : s.Cuts more t) (silent : t.Silent (contents limit levels t).2) :
    ((contents limit levels s).1 = (contents limit levels t).1 ∧
        (contents limit levels s).2.Cuts more (contents limit levels t).2 ∧
        s.Silent (contents limit levels s).2) ∨
      ((contents limit levels s).2.tokens = [] ∧ s.Spent (contents limit levels s).2) := by
  have led : s.Leads s.takeLevel.advance := (State.Leads.takeLevel s).trans (.advance _)
  have quiet : s.Silent s.takeLevel.advance :=
    (State.diagnostics_advance _).trans (State.diagnostics_takeLevel s)
  by_cases last : s.ahead = []
  · have stop : Rule.contents limit levels s = ([], s.takeLevel.advance) := sequenceFrom_stops (.inl last)
    rw [stop]
    exact .inr ⟨last, led.spent quiet (State.ahead_of_tokens_nil last)⟩
  · have quiet' : t.Silent t.takeLevel.advance :=
      (State.diagnostics_advance _).trans (State.diagnostics_takeLevel t)
    have rest : t.takeLevel.advance.Silent (Rule.contents limit levels t).2 := Eq.trans silent (Eq.symm quiet')
    rcases sequenceFrom_cut (statement h courses) [] (cuts.takeLevel.advance last) rest with
      ⟨same, cuts, silent⟩ | ⟨ended, spent, -⟩
    · exact .inl ⟨same, cuts, Eq.trans silent quiet⟩
    · exact .inr ⟨ended, spent.after led quiet⟩

private theorem refuseLevel {α : Type} {stump : α → Option α → Prop} (limit : Nat) :
    Cut more stump (refuseLevel limit : Rule α) s t :=
  fun silent => absurd silent (t.not_silent_diagnosed _)

private theorem block (h : (within limit levels).Cut more) (courses : (within limit levels).Follows limit) :
    Item more Firm (block limit (levels + 1)) := by
  intro s t cuts
  by_cases room : s.depth < limit
  · have room' : t.depth < limit := by rw [cuts.depth]; exact room
    intro silent
    have run := @run_block_of_room limit levels s room
    have run' := @run_block_of_room limit levels t room'
    have read : ∀ u : State, u.Leads (Rule.contents limit levels u).2 := fun u =>
      (State.Leads.takeLevel u).trans ((State.Leads.advance _).trans (leads_sequenceFrom _ _ _ _))
    have inside : t.Silent (Rule.contents limit levels t).2 := by
      have whole := silent
      rw [run'] at whole
      exact (whole.split (read t) ((State.Leads.returnLevels _ 1).trans ((Rule.closed _).leads _))).1
    rcases contents h courses cuts inside with ⟨same, cuts', quiet⟩ | ⟨ended, spent⟩
    · have rest := closed (.braced s.current (Rule.contents limit levels s).1) _ _ (cuts'.returnLevels 1)
      refine rest.step run ?_ ?_ ?_ ?_ silent
      · rw [run', cuts.current, same]
      · exact (read s).trans (.returnLevels _ 1)
      · exact (State.diagnostics_returnLevels _ 1).trans quiet
      · exact (State.diagnostics_returnLevels _ 1).trans inside
    · have returned := (State.Leads.returnLevels _ 1).spent (State.diagnostics_returnLevels _ 1) spent.ahead
      have refused : Spends False (Rule.closed (.braced s.current (Rule.contents limit levels s).1))
          ((Rule.contents limit levels s).2.returnLevels 1) := spends_closed _ ended
      rw [run]
      exact .inr ⟨spent.trans (returned.trans refused.spent), fun a eq =>
        refused.value (by rw [eq]; rfl)⟩
  · have room' : ¬ t.depth < limit := by rw [cuts.depth]; exact room
    apply (refuseLevel limit).of_run_eq
    · rw [run_block_succ, if_neg room, run_refuseLevel]
    · rw [run_block_succ, if_neg room', run_refuseLevel]

end Cut

private def ChainCut (more : List Token) (chain : Chain) (s t : State) : Prop :=
  t.Silent (chain.run t).2.2 →
    ((chain.run s).1 = (chain.run t).1 ∧ (chain.run s).2.1 = (chain.run t).2.1 ∧
        (chain.run s).2.2.Cuts more (chain.run t).2.2 ∧ s.Silent (chain.run s).2.2) ∨
      s.Spent (chain.run s).2.2

namespace ChainCut
variable {chain : Chain} {held : Nat} {u v : State}

private theorem step {other : Chain} (h : ChainCut more other u v) (first : chain.run s = other.run u)
    (second : chain.run t = other.run v) (led : s.Leads u) (silent : s.Silent u) (silent' : t.Silent v) :
    ChainCut more chain s t := by
  intro whole
  rw [second] at whole
  rw [first, second]
  rcases h (Eq.trans whole (Eq.symm silent')) with ⟨same, held, cuts, behind⟩ | spent
  · exact .inl ⟨same, held, cuts, Eq.trans behind silent⟩
  · exact .inr (spent.after led silent)

private theorem andThen {stump : Expression → Option Expression → Prop} {rule : Rule Expression}
    {follow : Expression → Chain} (first : Cut more stump rule s t)
    (second : ∀ a s' t', s'.Cuts more t' → ChainCut more (follow a) s' t')
    (late : ∀ (a : Expression) (s' : State), s'.ahead = [] → s'.Spent ((follow a).run s').2.2) :
    ChainCut more (.andThen rule held follow) s t := by
  intro silent
  obtain ⟨before, behind⟩ := silent.split (rule.leads t) (leads_chain rule held follow t)
  have outcome := first before
  have led := rule.leads s
  rw [Chain.run_andThen] at behind
  rw [Chain.run_andThen, Chain.run_andThen]
  generalize rule.run s = first at outcome led
  generalize rule.run t = second at outcome behind
  obtain ⟨built, s'⟩ := first
  obtain ⟨built', t'⟩ := second
  rcases outcome with ⟨same, cuts, quiet⟩ | ⟨spent, -⟩
  · obtain rfl : built = built' := same
    cases built with
    | none => exact .inl ⟨rfl, rfl, cuts, quiet⟩
    | some a =>
      rcases second a s' t' cuts behind with ⟨same, held, cuts, quiet'⟩ | spent
      · exact .inl ⟨same, held, cuts, Eq.trans quiet' quiet⟩
      · exact .inr (spent.after led quiet)
  · cases built with
    | none => exact .inr spent
    | some a => exact .inr (spent.trans (late a s' spent.ahead))

private theorem close (h : ChainCut more chain s t) : Cut more Loose chain.close s t := by
  intro silent
  rcases h ((State.diagnostics_returnLevels _ _).symm.trans silent) with ⟨same, held, cuts, quiet⟩ | spent
  · refine .inl ⟨same, ?_, (State.diagnostics_returnLevels _ _).trans quiet⟩
    rw [Chain.run_close, Chain.run_close, held]
    exact cuts.returnLevels _
  · exact .inr ⟨spent.trans ((State.Leads.returnLevels _ _).spent (State.diagnostics_returnLevels _ _)
      spent.ahead), fun _ _ => trivial⟩

/-- No level is left for one more link in the second run. -/
private theorem refused (run : chain.run t = (none, held, Rule.refused limit t)) : ChainCut more chain s t := by
  intro silent
  rw [run] at silent
  exact absurd silent (t.not_silent_diagnosed _)

end ChainCut

private structure CutWithin (more : List Token) (limit levels : Nat) : Prop where
  inner : (within limit levels).Cut more
  links : ∀ precedence left held s t, s.Cuts more t →
    ChainCut more (links limit levels precedence left held) s t

section
variable {precedence : Precedence} {left : Expression} {held : Nat}

private theorem linkAbove?_of_ended (ended : s.ahead = []) : linkAbove? precedence s.peek.kind = none := by
  rw [State.peek_kind_of_ended ended]
  rfl

/-- At the end no link follows. -/
private theorem spent_links (ended : s.ahead = []) :
    s.Spent ((links limit levels precedence left held).run s).2.2 := by
  rw [run_links_unlinked (linkAbove?_of_ended ended)]
  exact State.spent_refl ended

/-- No expression starts at the end, and that is all that is reported. -/
private theorem spends_expression (ended : s.tokens = []) :
    Spends False (expression limit levels precedence) s := by
  have nothing := State.ahead_of_tokens_nil ended
  have entry : s.Spent (entered precedence s) :=
    (State.Leads.record s _).spent (s.quiet_record _ rfl).silent nothing
  have refused : (entered precedence s).Spent (Rule.refused limit (entered precedence s)) :=
    State.spent_diagnosed (s := entered precedence s) nothing (State.location_current ended)
  have none_left : ∀ {rule : Rule Expression}, rule.run s = (none, Rule.refused limit (entered precedence s)) →
      Spends False rule s := by
    intro rule run
    refine ⟨?_, ?_⟩
    · rw [run]
      exact entry.trans refused
    · rw [run]
      exact fun built => by cases built
  cases levels with
  | zero => exact none_left run_expression_zero
  | succ levels =>
    by_cases room : s.depth < limit
    · have taken : s.Spent (entered precedence s).takeLevel :=
        entry.trans ((State.Leads.takeLevel _).spent (State.diagnostics_takeLevel _) nothing)
      have operand := Cut.spends_operand (within limit levels) (s := (entered precedence s).takeLevel) ended
      have value : ((Rule.operand (within limit levels)).run (entered precedence s).takeLevel).1 = none :=
        Option.not_isSome_iff_eq_none.1 operand.value
      have run : (expression limit (levels + 1) precedence).run s =
          (none, ((Rule.operand (within limit levels)).run (entered precedence s).takeLevel).2.returnLevels
            1) := by
        rw [run_expression_succ, if_pos room, Chain.run_close, Chain.run_andThen]
        generalize (Rule.operand (within limit levels)).run (entered precedence s).takeLevel = outcome at value
        obtain ⟨built, u⟩ := outcome
        obtain rfl : built = none := value
        rfl
      refine ⟨?_, ?_⟩
      · rw [run]
        exact taken.trans (operand.spent.trans ((State.Leads.returnLevels _ 1).spent
          (State.diagnostics_returnLevels _ 1) operand.spent.ahead))
      · rw [run]
        exact fun built => by cases built
    · exact none_left (run_expression_succ.trans (if_neg room))

/-- Where no link follows in either run, or the first one has come to its end. -/
private theorem chainCut_unlinked (cuts : s.Cuts more t) (h : linkAbove? precedence s.peek.kind = none) :
    ChainCut more (links limit levels precedence left held) s t := by
  by_cases last : s.ahead = []
  · exact fun _ => .inr (spent_links last)
  · intro _
    rw [run_links_unlinked h, run_links_unlinked (by rw [cuts.peek last, h])]
    exact .inl ⟨rfl, rfl, cuts, rfl⟩

/-- Where a link follows in the first run, it follows in both. -/
private theorem goes_of_link {link : Link} (h : linkAbove? precedence s.peek.kind = some link) : s.ahead ≠ [] := by
  intro ended
  rw [linkAbove?_of_ended ended] at h
  cases h

end

private theorem cutWithin_zero (more : List Token) (limit : Nat) : CutWithin more limit 0 where
  inner := by
    refine ⟨fun precedence s t cuts => ?_, fun s t cuts => ?_, fun _ _ => spends_expression⟩
    · apply (Cut.refuseLevel limit).step run_expression_zero run_expression_zero (.record s _)
      · exact (s.quiet_record _ rfl).silent
      · exact (t.quiet_record _ rfl).silent
    · exact (Cut.refuseLevel limit).of_run_eq run_block_zero run_block_zero
  links precedence left held s t cuts := by
    cases above : linkAbove? precedence s.peek.kind with
    | none => exact chainCut_unlinked cuts above
    | some link => exact .refused (run_links_zero (by rw [cuts.peek (goes_of_link above), above]))

/-- A chain goes on by links behind its operand, or behind the operand of its last link. -/
private theorem CutWithin.andLinks (h : CutWithin more limit levels) (precedence : Precedence) (held : Nat)
    {rule : Rule Expression} (first : Cut more Loose rule s t) :
    ChainCut more (.andThen rule held fun left => Rule.links limit levels precedence left held) s t := by
  apply ChainCut.andThen first
  · exact fun left s t cuts => h.links precedence left held s t cuts
  · exact fun left s ended => spent_links ended

private theorem cutWithin_succ (h : CutWithin more limit levels) : CutWithin more limit (levels + 1) where
  inner := by
    refine ⟨fun precedence s t cuts => ?_, ?_, fun _ _ => spends_expression⟩
    · have entry : (entered precedence s).Cuts more (entered precedence t) := cuts.record _ _
      have quiet : ∀ u : State, u.Silent (entered precedence u) := fun u => (u.quiet_record _ rfl).silent
      by_cases room : s.depth < limit
      · have room' : t.depth < limit := by rw [cuts.depth]; exact room
        have operand := Cut.operand h.inner _ _ entry.takeLevel
        apply (h.andLinks precedence 1 operand).close.step
        · exact run_expression_succ.trans (if_pos room)
        · exact run_expression_succ.trans (if_pos room')
        · exact (State.Leads.record s _).trans (.takeLevel _)
        · exact (State.diagnostics_takeLevel _).trans (quiet s)
        · exact (State.diagnostics_takeLevel _).trans (quiet t)
      · have room' : ¬ t.depth < limit := by rw [cuts.depth]; exact room
        apply (Cut.refuseLevel limit).step _ _ (.record s _) (quiet s) (quiet t)
        · exact run_expression_succ.trans (if_neg room)
        · exact run_expression_succ.trans (if_neg room')
    · exact Cut.block h.inner (followsWithin limit levels).inner
  links precedence left held s t cuts := by
    cases above : linkAbove? precedence s.peek.kind with
    | none => exact chainCut_unlinked cuts above
    | some link =>
      have goes := goes_of_link above
      have above' : linkAbove? precedence t.peek.kind = some link := by rw [cuts.peek goes, above]
      by_cases room : s.depth < limit
      · have room' : t.depth < limit := by rw [cuts.depth]; exact room
        have first : Cut more Loose (linked (within limit levels) link left) s.takeLevel t.takeLevel :=
          Cut.linked h.inner link left cuts.takeLevel goes
        apply (h.andLinks precedence (held + 1) first).step
        · rw [run_links_succ above, if_pos room]
        · rw [run_links_succ above', if_pos room']
        · exact .takeLevel s
        · exact State.diagnostics_takeLevel s
        · exact State.diagnostics_takeLevel t
      · have room' : ¬ t.depth < limit := by rw [cuts.depth]; exact room
        exact .refused ((run_links_succ above').trans (if_neg room'))

private theorem cutWithin (more : List Token) (limit levels : Nat) : CutWithin more limit levels := by
  induction levels with
  | zero => exact cutWithin_zero more limit
  | succ levels ih => exact cutWithin_succ ih

/-- The statements of a program that is cut off. -/
theorem cut_topStatement (more : List Token) (limit : Nat) :
    Cut.Item more Statement.Stump (topStatement limit) :=
  Cut.topStatement (cutWithin more limit limit).inner (followsWithin limit limit).inner

end LittleScript.Rule
