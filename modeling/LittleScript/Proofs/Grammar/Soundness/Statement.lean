import LittleScript.Proofs.Grammar.Beginning
import LittleScript.Proofs.Grammar.Soundness.Expression

/-!
What the rules for statements and blocks ensure when they report nothing.
-/

namespace LittleScript.Grammar

open Run Rule

def EnsuresStatement (limit levels : Nat) (item : Rule Statement) : Prop :=
  ∀ s, s.tokens ≠ [] → s.depth + levels = limit → s.Silent (item.run s).2 →
    (∃ tree t, item.run s = (some tree, t) ∧ Derived (.statement tree) levels s.tokens s.depth t ∧
      (tree.openEnded = true → t.peek.kind ≠ .elseWord)) ∨
    (∃ t, item.run s = (none, t) ∧ t.ahead = s.ahead ∧ t.depth = s.depth ∧
      s.current.kind.Stray false)

section
variable {limit levels : Nat} {s : State}

private theorem ensures_assigned (h : Sound limit levels) (base : s.depth + levels = limit) :
    Ensures (assigned (within limit levels)) s fun value t => ∃ sign tokens stop peak,
      sign.kind = .assign ∧ Derives (.whole value) tokens peak ∧ stop.kind = .semicolon ∧
        peak ≤ levels ∧ s.ahead = sign :: (tokens ++ stop :: t.ahead) ∧ t.depth = s.depth := by
  apply Ensures.expected (by decide)
  intro assigns sign
  apply (ensures_nextExpression h (s := s.advance) base).bind
  rintro value t ⟨tokens, peak, right, le, ahead, depth⟩
  apply Ensures.expected (by decide)
  intro stops stop
  refine .done ⟨s.peek, tokens, t.peek, peak, assigns, right, stops, le, ?_, depth⟩
  rw [sign, ahead, stop]

private theorem ensures_binding (h : Sound limit levels) (word : s.current.kind = .letWord)
    (base : s.depth + levels = limit) :
    Ensures (binding (within limit levels)) s fun tree t =>
      Derived (.statement tree) levels s.tokens s.depth t ∧ tree.openEnded = false := by
  have start := State.tokens_of_current (s := s) (by rw [word]; decide)
  apply Ensures.step (run_current s)
  apply Ensures.expected (by decide)
  intro named name
  apply (ensures_assigned h (s := s.advance) base).bind
  rintro value t ⟨sign, tokens, stop, peak, assigns, right, stops, le, ahead, depth⟩
  refine .done ⟨⟨_, peak, .binding word named assigns right stops, le, ?_, depth⟩, rfl⟩
  rw [start, name, ahead]
  simp only [List.cons_append, List.append_assoc, List.nil_append]

private theorem ensures_answer (h : Sound limit levels) (word : s.current.kind = .returnWord)
    (base : s.depth + levels = limit) :
    Ensures (answer (within limit levels)) s fun tree t =>
      Derived (.statement tree) levels s.tokens s.depth t ∧ tree.openEnded = false := by
  have start := State.tokens_of_current (s := s) (by rw [word]; decide)
  apply Ensures.step (run_current s)
  apply (ensures_nextExpression h base).bind
  rintro value t ⟨tokens, peak, right, le, ahead, depth⟩
  apply Ensures.expected (by decide)
  intro stops stop
  refine .done ⟨⟨_, peak, .answer word right stops, le, ?_, depth⟩, rfl⟩
  rw [start, ahead, stop]
  simp only [List.cons_append, List.append_assoc, List.nil_append]

private theorem ensures_assignment (h : Sound limit levels) (named : s.current.kind = .identifier)
    (base : s.depth + levels = limit) :
    Ensures (assignment (within limit levels)) s fun tree t =>
      Derived (.statement tree) levels s.tokens s.depth t ∧ tree.openEnded = false := by
  have start := State.tokens_of_current (s := s) (by rw [named]; decide)
  apply Ensures.step (run_current s)
  apply (ensures_assigned h base).bind
  rintro value t ⟨sign, tokens, stop, peak, assigns, right, stops, le, ahead, depth⟩
  refine .done ⟨⟨_, peak, .assignment named assigns right stops, le, ?_, depth⟩, rfl⟩
  rw [start, ahead]
  simp only [List.cons_append, List.append_assoc, List.nil_append]

private theorem ensures_alternative (h : Sound limit levels) (base : s.depth + levels = limit) :
    Ensures (alternative (within limit levels)) s fun tree t =>
      Derived (.alternative tree) levels s.ahead s.depth t ∧ (tree = none → t.peek.kind ≠ .elseWord) := by
  apply Ensures.step (run_peek s)
  by_cases word : s.peek.kind = .elseWord
  · rw [if_pos word]
    apply Ensures.step (run_advance s)
    apply (ensures_nextBlock h (s := s.advance) base).bind
    rintro tree t ⟨tokens, peak, block, le, ahead, depth⟩
    refine .done ⟨⟨_, peak, .otherwise word block, le, ?_, depth⟩, fun none => by cases none⟩
    rw [State.ahead_of_peek (by rw [word]; decide), ahead, List.cons_append]
  · rw [if_neg word]
    exact .done ⟨⟨[], 0, .noAlternative, Nat.zero_le _, rfl, rfl⟩, fun _ => word⟩

private theorem ensures_conditional (h : Sound limit levels) (word : s.current.kind = .ifWord)
    (base : s.depth + levels = limit) :
    Ensures (conditional (within limit levels)) s fun tree t =>
      Derived (.statement tree) levels s.tokens s.depth t ∧
        (tree.openEnded = true → t.peek.kind ≠ .elseWord) := by
  have start := State.tokens_of_current (s := s) (by rw [word]; decide)
  apply Ensures.step (run_current s)
  apply Ensures.expected (by decide)
  intro opens opening
  apply (ensures_nextExpression h (s := s.advance) base).bind
  rintro condition t ⟨guard, low, test, le, ahead, depth⟩
  apply Ensures.expected (by decide)
  intro closes closing
  have base_t : t.advance.depth + levels = limit := by
    rw [State.depth_advance, depth, State.depth_advance, base]
  apply (ensures_nextBlock h base_t).bind
  rintro consequence u ⟨front, mid, block, le', ahead', depth'⟩
  have base' : u.depth + levels = limit := by
    rw [depth', State.depth_advance, depth, State.depth_advance, base]
  apply (ensures_alternative h base').bind
  rintro other v ⟨⟨back, high, alternative, le'', ahead'', depth''⟩, complete⟩
  refine .done ⟨⟨_, _, .conditional word opens test closes block alternative, ?_, ?_, ?_⟩, ?_⟩
  · exact Nat.max_le.2 ⟨le, Nat.max_le.2 ⟨le', le''⟩⟩
  · rw [start, opening, ahead, closing, ahead', ahead'']
    simp only [List.cons_append, List.append_assoc]
  · rw [depth'', depth', State.depth_advance, depth, State.depth_advance]
  · intro open_end
    apply complete
    cases other with
    | none => rfl
    | some tree => cases open_end

private theorem ensures_functionStatement (h : Sound limit levels) (word : s.current.kind = .fnWord)
    (base : s.depth + levels = limit) :
    Ensures (functionStatement (within limit levels)) s fun tree t =>
      Derived (.statement tree) levels s.tokens s.depth t ∧ tree.openEnded = false := by
  apply Ensures.step (run_current s)
  apply (ensures_signature h word base).bind
  rintro ⟨parameters, body⟩ t ⟨tokens, peak, function, le, used, depth⟩
  apply Ensures.step (run_peek t)
  dsimp only
  by_cases stops : t.peek.kind = .semicolon
  · rw [if_pos stops]
    apply Ensures.step (run_advance t)
    refine .done ⟨⟨_, peak, .stopped function stops, le, ?_, depth⟩, rfl⟩
    rw [used, State.ahead_of_peek (s := t) (by rw [stops]; decide), List.append_assoc]
    rfl
  · rw [if_neg stops]
    exact .done ⟨⟨tokens, peak, .procedure function, le, used, depth⟩, rfl⟩

/-- The rule for a first token that begins something. -/
private theorem ensures_statementOn (h : Sound limit levels) (begins : ¬ s.current.kind.Stray false)
    (base : s.depth + levels = limit) :
    Ensures (statementOn (within limit levels) s.current) s fun tree t =>
      Derived (.statement tree) levels s.tokens s.depth t ∧
        (tree.openEnded = true → t.peek.kind ≠ .elseWord) := by
  have closed : ∀ {rule : Rule Statement}, Ensures rule s (fun tree t =>
        Derived (.statement tree) levels s.tokens s.depth t ∧ tree.openEnded = false) →
      Ensures rule s fun tree t => Derived (.statement tree) levels s.tokens s.depth t ∧
        (tree.openEnded = true → t.peek.kind ≠ .elseWord) := by
    intro rule ensures
    apply ensures.weaken
    rintro tree t ⟨derived, ended⟩
    exact ⟨derived, fun open_end => by rw [ended] at open_end; cases open_end⟩
  unfold statementOn
  split
  · exact closed (ensures_binding h ‹_› base)
  · exact closed (ensures_answer h ‹_› base)
  · exact closed (ensures_functionStatement h ‹_› base)
  · exact ensures_conditional h ‹_› base
  · exact closed (ensures_assignment h ‹_› base)
  · exact .refuse _ _
  · rename_i binds answers defines tests names illegal
    refine absurd ⟨?_, fun block => by cases block⟩ begins
    simp only [List.mem_cons, List.not_mem_nil, or_false, not_or]
    exact ⟨binds, answers, defines, tests, names, illegal⟩

theorem ensures_statement (h : Sound limit levels) :
    EnsuresStatement limit levels (statement (within limit levels)) := by
  intro s proper base silent
  by_cases stray : s.current.kind.Stray false
  · obtain ⟨t, run, quiet, ahead⟩ := run_statement_stray (within limit levels) stray
    exact .inr ⟨t, run, ahead, quiet.depth, stray⟩
  · left
    have reads : Ensures (statement (within limit levels)) s fun tree t =>
        Derived (.statement tree) levels s.tokens s.depth t ∧
          (tree.openEnded = true → t.peek.kind ≠ .elseWord) := by
      apply Ensures.step (run_current s)
      apply Ensures.step (run_peek s)
      apply Ensures.step (run_record _ s)
      apply Ensures.andRecord _ (fun _ => rfl) fun _ _ derived => derived
      exact ensures_statementOn h (s := s.record _) stray base
    exact reads silent

end

section
variable {limit levels : Nat} {inBlock : Bool} {item : Rule Statement} {stops : Kind → Bool}

/-- A silent sequence has found the statements of a derivation. -/
theorem sound_sequence (h : EnsuresStatement limit levels item)
    (stopping : ∀ kind, stops kind = (inBlock && kind = .rightBrace)) (found : List Statement)
    (s : State) (base : s.depth + levels = limit)
    (silent : s.Silent (sequenceFrom item stops found s).2) :
    ∃ trees t tokens peak, sequenceFrom item stops found s = (found.reverse ++ trees, t) ∧
      Derives (.statements inBlock trees) tokens peak ∧ peak ≤ levels ∧ s.tokens = tokens ++ t.tokens ∧
      t.depth = s.depth ∧ (t.tokens = [] ∨ stops t.current.kind = true) := by
  fun_induction sequenceFrom item stops found s with
  | case1 found s ended =>
    exact ⟨[], s, [], 0, by rw [List.append_nil], .noStatements, Nat.zero_le _, rfl, rfl, .inl ended⟩
  | case2 found s proper stopped =>
    exact ⟨[], s, [], 0, by rw [List.append_nil], .noStatements, Nat.zero_le _, rfl, rfl, .inr stopped⟩
  | case3 found s proper goes ih =>
    have led := item.leads s
    have rest :=
      (State.Leads.advance (item.run s).2).trans
        (leads_sequenceFrom item stops ((item.run s).1.toList ++ found) (item.run s).2.advance)
    obtain ⟨before, behind⟩ := State.Silent.split led rest silent
    have behind := Eq.trans behind (Eq.symm (State.diagnostics_advance _))
    obtain ⟨tree, t, run, derived, complete⟩ | ⟨t, run, ahead, depth, stray⟩ := h s proper base before
    · obtain ⟨front, low, first, le, used, depth⟩ := derived
      rw [run] at ih behind ⊢
      obtain ⟨trees, u, back, high, same, others, le', used', depth', ended⟩ :=
        ih (by rw [State.depth_advance, depth, base]) behind
      refine ⟨tree :: trees, u, front ++ back, max low high, ?_, ?_, Nat.max_le.2 ⟨le, le'⟩, ?_, ?_, ended⟩
      · rw [same, Option.toList_some, List.singleton_append, List.reverse_cons, List.append_assoc]
        rfl
      · apply Derives.statement first others
        intro open_end
        have seen := complete open_end
        rw [State.peek_kind, ← State.ahead_advance_tokens, used'] at seen
        cases back with
        | nil => decide
        | cons token back => exact seen
      · rw [used, ← State.ahead_advance_tokens, used', List.append_assoc]
      · rw [depth', State.depth_advance, depth]
    · rw [run] at ih behind ⊢
      obtain ⟨trees, u, tokens, peak, same, others, le, used, depth', ended⟩ :=
        ih (by rw [State.depth_advance, depth, base]) behind
      refine ⟨trees, u, s.current :: tokens, peak, same, ?_, le, ?_, ?_, ended⟩
      · apply Derives.stray ⟨stray.1, ?_⟩ others
        intro block brace
        rw [stopping, block, brace] at goes
        exact goes rfl
      · rw [State.tokens_of_proper proper, ← ahead, ← State.ahead_advance_tokens, used, List.cons_append]
      · rw [depth', State.depth_advance, depth]

private theorem ensures_closed (block : Block) (s : State) :
    Ensures (closed block) s fun b t => b = block ∧ t = s ∧ s.current.kind = .rightBrace := by
  apply Ensures.step (run_current s)
  by_cases closes : s.current.kind = .rightBrace
  · rw [if_pos closes]
    exact .done ⟨rfl, rfl, closes⟩
  · rw [if_neg closes]
    exact .refuse _ _

theorem sound_block (h : Sound limit levels) {s : State} (opens : s.current.kind = .leftBrace)
    (base : s.depth + (levels + 1) = limit) :
    Ensures (block limit (levels + 1)) s fun tree t =>
      Derived (.block tree) (levels + 1) s.tokens s.depth t := by
  intro silent
  have room : s.depth < limit := by omega
  let start := s.takeLevel
  rw [run_block_of_room room] at silent ⊢
  have led : s.Leads (contents limit levels s).2 :=
    ((State.Leads.takeLevel s).trans (.advance _)).trans (leads_sequenceFrom _ _ _ _)
  have rest : (contents limit levels s).2.Leads _ :=
    (State.Leads.returnLevels _ 1).trans ((closed (.braced s.current (contents limit levels s).1)).leads _)
  obtain ⟨before, behind⟩ := State.Silent.split led rest silent
  have heard : start.advance.journal.diagnostics = s.journal.diagnostics :=
    (State.diagnostics_advance _).trans (State.diagnostics_takeLevel s)
  obtain ⟨trees, t, tokens, peak, same, inside, le, used, depth, -⟩ :=
    sound_sequence (ensures_statement h) (fun _ => (Bool.true_and _).symm) [] start.advance
      (by rw [State.depth_advance, State.depth_takeLevel]; omega) (Eq.trans before (Eq.symm heard))
  have same : contents limit levels s = (trees, t) := same
  rw [same] at behind ⊢
  have ended : (t.returnLevels 1).Silent ((closed (.braced s.current trees)).run (t.returnLevels 1)).2 :=
    Eq.trans behind (Eq.symm (State.diagnostics_returnLevels t 1))
  obtain ⟨_, _, run', rfl, rfl, closes⟩ := ensures_closed _ _ ended
  refine ⟨_, _, run', _, peak + 1, .block opens inside closes, Nat.succ_le_succ le, ?_, ?_⟩
  · have last := State.tokens_of_current (s := t.returnLevels 1) (by rw [closes]; decide)
    have first := State.tokens_of_current (s := s) (by rw [opens]; decide)
    have ahead : s.ahead = tokens ++ (t.returnLevels 1).tokens := used
    rw [first, ahead, last]
    simp only [List.cons_append, List.append_assoc, List.nil_append]
  · rw [State.depth_returnLevels, depth]
    exact Nat.add_sub_cancel _ _

end

end LittleScript.Grammar
