import LittleScript.Proofs.Layered.Climbing
import LittleScript.Proofs.Rule.Nested

/-!
Climbing under a limit of levels refines the plain descent: as long as the limit is not reported, both
come to the same expression or the same failure, at the same token and with the same diagnostics.
-/

namespace LittleScript

open Run

/-- Two runs of which only the first one counts levels, compared in everything else that can be seen
later. It is lost when it reports the limit. -/
private def Comparison.upToLevels (limit : Nat) : Comparison where
  Same s s' := s'.tokens = s.tokens ∧ s'.finish = s.finish ∧
    s'.journal.diagnostics = s.journal.diagnostics
  Lost := State.TooDeep limit
  tokens h := h.1
  finish h := h.2.1
  record event h := by
    refine ⟨h.1, h.2.1, ?_⟩
    simp only [State.record, Journal.diagnostics_record, h.2.2]
  advance h := by
    refine ⟨congrArg List.tail h.1, h.2.1, ?_⟩
    rw [State.diagnostics_advance, State.diagnostics_advance, h.2.2]
  lost a h b := h.extend a b

namespace Layered

open Rule

variable {limit levels : Nat}

/-- The first run may open and close levels, or make a silent entry, by itself. -/
private theorem same_of_silent {s t s' : State} (h : (Comparison.upToLevels limit).Same s s')
    (tokens : t.tokens = s.tokens) (finish : t.finish = s.finish) (silent : s.Silent t) :
    (Comparison.upToLevels limit).Same t s' :=
  ⟨h.1.trans tokens.symm, h.2.1.trans finish.symm, h.2.2.trans (Eq.symm silent)⟩

private def ChainAgree (limit : Nat) (chain : Chain) (rule : Rule Expression) : Prop :=
  ∀ s s', (Comparison.upToLevels limit).Same s s' →
    State.TooDeep limit s (chain.run s).2.2 ∨
      SameOutcome (.upToLevels limit) ((chain.run s).1, (chain.run s).2.2) (rule.run s')

private theorem chainAgree_andThen {α : Type} {a b : Rule α} (held : Nat) {follow : α → Chain}
    {goes : α → Rule Expression} (h : ∀ size, Agree (.upToLevels limit) size a b)
    (rest : ∀ x, ChainAgree limit (follow x) (goes x)) :
    ChainAgree limit (.andThen a held follow) (b >>= goes) := by
  intro s s' same
  obtain lost | ⟨value, same'⟩ := h _ s s' same (Nat.le_refl _)
  · exact .inl (lost.extend (.refl s) (leads_chain a held follow s))
  · simp only [Chain.run_andThen, run_bind]
    cases ha : a.run s with
    | mk x t =>
      cases hb : b.run s' with
      | mk y t' =>
        have led : s.Leads t := leads_of_run ha
        simp only [ha, hb] at value same'
        subst value
        cases y with
        | none => exact .inr ⟨rfl, same'⟩
        | some y =>
          obtain lost | outcome := rest y t t' same'
          · exact .inl (lost.extend led (.refl _))
          · exact .inr outcome

private abbrev loop (precedence : Precedence) (left : Expression) : Rule Expression :=
  extended (linkAbove? precedence) (joined parser) left

private structure Follows (limit levels : Nat) : Prop where
  inner : ∀ size, Inner.Agree (.upToLevels limit) size (within limit levels) parser
  links : ∀ precedence left held,
    ChainAgree limit (links limit levels precedence left held) (loop precedence left)

private theorem links_unlinked {precedence : Precedence} {left : Expression} {held : Nat} {s s' : State}
    (same : (Comparison.upToLevels limit).Same s s')
    (h : linkAbove? precedence s.peek.kind = none) :
    SameOutcome (.upToLevels limit) (((links limit levels precedence left held).run s).1,
      ((links limit levels precedence left held).run s).2.2) ((loop precedence left).run s') := by
  rw [run_links_unlinked h, run_extended, extendFrom_unlinked (by rw [Comparison.peek same, h])]
  exact ⟨rfl, same⟩

private theorem follows_zero : Follows limit 0 where
  inner size := by
    refine ⟨fun precedence _ s s' same _ => .inl ?_, fun s s' same _ => .inl ?_⟩
    · change State.TooDeep limit s ((expression limit 0 precedence).run s).2
      rw [run_expression_zero]
      exact (State.tooDeep_refused limit _).extend (.record s _) (.refl _)
    · change State.TooDeep limit s ((Rule.block limit 0).run s).2
      rw [run_block_zero]
      exact State.tooDeep_refused limit s
  links precedence left held s s' same := by
    cases h : linkAbove? precedence s.peek.kind with
    | none => exact .inr (links_unlinked same h)
    | some link =>
      left
      rw [run_links_zero h]
      exact State.tooDeep_refused limit s

private theorem links_succ (h : Follows limit levels) (precedence : Precedence) (left : Expression)
    (held : Nat) :
    ChainAgree limit (Rule.links limit (levels + 1) precedence left held) (loop precedence left) := by
  intro s s' same
  cases above : linkAbove? precedence s.peek.kind with
  | none => exact .inr (links_unlinked same above)
  | some link =>
    have proper : s'.tokens ≠ [] := by rw [same.1]; exact proper_of_link above
    have linked' : linkAbove? precedence s'.peek.kind = some link := by
      rw [Comparison.peek same, above]
    rw [run_links_succ above]
    split
    · have opened := same_of_silent same (t := s.takeLevel) rfl rfl (State.diagnostics_takeLevel s)
      have goes := chainAgree_andThen (held + 1)
        (fun size => (Agree.linked (h.inner size) link left).mono (Nat.le_succ size))
        (fun left => h.links precedence left (held + 1)) _ _ opened
      have same_run : (linked parser link left >>= loop precedence).run s' =
          (loop precedence left).run s' := by
        rw [linked_eq, run_extended, extendFrom_linked proper linked']
        rfl
      rw [same_run] at goes
      exact goes.imp (fun lost => lost.extend (.takeLevel s) (.refl _)) id
    · left
      exact State.tooDeep_refused limit s

private theorem expression_succ (h : Follows limit levels) {precedence : Precedence}
    (used : precedence ≠ .call) (size : Nat) :
    Agree (.upToLevels limit) size (expression limit (levels + 1) precedence)
      (parser.expression precedence) := by
  intro s s' same _
  rw [run_expression_succ, ← climbing_eq used]
  split
  · have opened := same_of_silent same (t := (entered precedence s).takeLevel) rfl rfl
      ((State.diagnostics_takeLevel _).trans (State.quiet_record s _ rfl).silent)
    obtain lost | ⟨value, same'⟩ := chainAgree_andThen 1
      (fun size => (Agree.operand (h.inner size)).mono (Nat.le_succ size))
      (fun left => h.links precedence left 1) _ _ opened
    · exact .inl (lost.extend ((State.Leads.record s _).trans (.takeLevel _)) (.returnLevels _ _))
    · right
      rw [Chain.run_close]
      exact ⟨value, same_of_silent same' rfl rfl (State.diagnostics_returnLevels _ _)⟩
  · left
    exact (State.tooDeep_refused limit _).extend (.record s _) (.refl _)

private theorem block_succ (h : Follows limit levels) (size : Nat) :
    Agree (.upToLevels limit) size (Rule.block limit (levels + 1)) parser.block := by
  intro s s' same bound
  rw [run_block_succ, parser_block]
  split
  · have opened := same_of_silent same (t := s.takeLevel) rfl rfl (State.diagnostics_takeLevel s)
    have returns : Agree (.upToLevels limit) size ((openBlock (within limit levels)).andReturnLevels 1)
        (openBlock parser) := by
      intro s s' same bound
      obtain lost | ⟨value, same'⟩ :=
        (Agree.openBlock (h.inner size)).mono (Nat.le_succ size) s s' same bound
      · exact .inl (lost.extend (.refl s) (.returnLevels _ _))
      · right
        rw [run_andReturnLevels]
        exact ⟨value, same_of_silent same' rfl rfl (State.diagnostics_returnLevels _ _)⟩
    obtain lost | outcome := (returns.bind fun read => Agree.closed read) _ _ opened bound
    · exact .inl (lost.extend (.takeLevel s) (.refl _))
    · exact .inr outcome
  · left
    exact State.tooDeep_refused limit s

private theorem follows (limit levels : Nat) : Follows limit levels := by
  induction levels with
  | zero => exact follows_zero
  | succ levels ih =>
    exact ⟨fun size => ⟨fun _ used => expression_succ ih used size, block_succ ih size⟩, links_succ ih⟩

end Layered
end LittleScript
